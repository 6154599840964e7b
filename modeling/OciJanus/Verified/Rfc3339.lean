import Mathlib.Data.List.Basic
import Mathlib.Data.List.TakeWhile
import Mathlib.Tactic.Ring

/-!
# UTC times and their RFC 3339 text

A `Time` is a count of nanoseconds from the first instant of year 1 UTC.
`formatRFC3339Nano_injective`: the text determines the instant.
-/

namespace OciJanus.Verified.Rfc3339

open List

abbrev Time := Int

def truncateMicro (t : Time) : Time := t / 1000 * 1000

structure YearDay where
  year : Int
  yday : Nat

def yearDay (d : Int) : YearDay :=
  let n400 := d / 146097
  let r400 := d % 146097
  let n100 := min (r400 / 36524) 3
  let r100 := r400 - 36524 * n100
  let n4 := r100 / 1461
  let r4 := r100 % 1461
  let n1 := min (r4 / 365) 3
  ⟨400 * n400 + 100 * n100 + 4 * n4 + n1 + 1, (r4 - 365 * n1).toNat⟩

theorem yearDay_spec (d : Int) :
    ∃ n400 n100 n4 n1 : Int, (0 ≤ n100 ∧ n100 ≤ 3) ∧ (0 ≤ n4 ∧ n4 ≤ 24) ∧ (0 ≤ n1 ∧ n1 ≤ 3) ∧
      (yearDay d).year = 400 * n400 + 100 * n100 + 4 * n4 + n1 + 1 ∧
      d = 146097 * n400 + 36524 * n100 + 1461 * n4 + 365 * n1 + (yearDay d).yday ∧
      ((yearDay d).yday < 365 ∨ ((yearDay d).yday = 365 ∧ n1 = 3 ∧ (n4 = 24 → n100 = 3))) := by
  have hr400 := Int.emod_nonneg d (show (146097 : Int) ≠ 0 by decide)
  have hr400' := Int.emod_lt_of_pos d (show (0 : Int) < 146097 by decide)
  have hd := Int.mul_ediv_add_emod d 146097
  refine ⟨d / 146097, min (d % 146097 / 36524) 3,
    (d % 146097 - 36524 * min (d % 146097 / 36524) 3) / 1461,
    min ((d % 146097 - 36524 * min (d % 146097 / 36524) 3) % 1461 / 365) 3,
    ?_, ?_, ?_, rfl, ?_, ?_⟩
  · omega
  · omega
  · omega
  · simp only [yearDay]
    generalize d / 146097 = n400 at hd ⊢
    generalize d % 146097 = r400 at hr400 hr400' hd ⊢
    omega
  · simp only [yearDay]
    generalize d % 146097 = r400 at hr400 hr400' hd ⊢
    omega

theorem yearDay_injective : Function.Injective yearDay := by
  intro d e h
  obtain ⟨a, b, c, n, hb, hc, hn, hyear, hday, _⟩ := yearDay_spec d
  obtain ⟨a', b', c', n', hb', hc', hn', hyear', hday', _⟩ := yearDay_spec e
  rw [h, hyear'] at hyear
  rw [h] at hday
  have ha : a = a' := by omega
  have hbb : b = b' := by omega
  have hcc : c = c' := by omega
  omega

def isLeap (y : Int) : Bool := y % 4 = 0 && (y % 100 ≠ 0 || y % 400 = 0)

def monthLengths (leap : Bool) : List Nat :=
  [31, if leap then 29 else 28, 31, 30, 31, 30, 31, 31, 30, 31, 30, 31]

theorem yday_lt (d : Int) : (yearDay d).yday < (monthLengths (isLeap (yearDay d).year)).sum := by
  obtain ⟨a, b, c, n, hb, hc, hn, hyear, -, hlast⟩ := yearDay_spec d
  rcases hlast with hlt | ⟨hyday, hn3, hcent⟩
  · cases isLeap (yearDay d).year <;> simp [monthLengths] <;> omega
  · have hleap : isLeap (yearDay d).year = true := by
      simp only [isLeap, hyear, Bool.and_eq_true, Bool.or_eq_true, decide_eq_true_eq]
      omega
    simp [hleap, monthLengths, hyday]

def splitMonth : List Nat → Nat → Nat × Nat
  | [], d => (0, d)
  | m :: ms, d =>
    if d < m then (0, d)
    else ((splitMonth ms (d - m)).1 + 1, (splitMonth ms (d - m)).2)

def joinMonth : List Nat → Nat × Nat → Nat
  | [], p => p.2
  | m :: ms, p => if p.1 = 0 then p.2 else m + joinMonth ms (p.1 - 1, p.2)

theorem joinMonth_splitMonth (ms : List Nat) (d : Nat) : joinMonth ms (splitMonth ms d) = d := by
  induction ms generalizing d with
  | nil => rfl
  | cons m ms ih =>
    by_cases hd : d < m
    · simp [splitMonth, joinMonth, hd]
    · have hrec := ih (d - m)
      simp only [splitMonth, hd, if_false, joinMonth, Nat.add_one_ne_zero, Nat.add_sub_cancel]
      rw [hrec]
      omega

theorem splitMonth_bounds (ms : List Nat) (d : Nat) (hd : d < ms.sum) (hms : ∀ m ∈ ms, m ≤ 31) :
    (splitMonth ms d).1 < ms.length ∧ (splitMonth ms d).2 < 31 := by
  induction ms generalizing d with
  | nil => simp at hd
  | cons m ms ih =>
    have hm : m ≤ 31 := hms m (by simp)
    by_cases hlt : d < m
    · simp only [splitMonth, hlt, if_true, length_cons]
      omega
    · simp only [sum_cons] at hd
      have hrec := ih (d - m) (by omega) (fun x hx => hms x (by simp [hx]))
      simp only [splitMonth, hlt, if_false, length_cons]
      omega

def digitChar (d : Nat) : Char := Char.ofNat (48 + d)

theorem digitChar_inj : ∀ d < 10, ∀ e < 10, digitChar d = digitChar e → d = e := by
  decide

theorem digitChar_ne : ∀ d < 10, digitChar d ≠ '-' ∧ digitChar d ≠ 'T' ∧ digitChar d ≠ 'Z' := by
  decide

def text (ds : List Nat) : List Char := (ds.map digitChar).reverse

@[simp] theorem text_length (ds : List Nat) : (text ds).length = ds.length := by
  simp [text]

variable {ds : List Nat}

theorem mem_text {c : Char} (h : c ∈ text ds) : ∃ d ∈ ds, digitChar d = c := by
  simpa [text] using h

theorem text_inj {es : List Nat} (hds : ∀ d ∈ ds, d < 10) (hes : ∀ e ∈ es, e < 10)
    (h : text ds = text es) : ds = es := by
  have hmap := reverse_injective h
  clear h
  induction ds generalizing es with
  | nil => exact (map_eq_nil_iff.mp hmap.symm).symm
  | cons d ds ih =>
    cases es with
    | nil => simp at hmap
    | cons e es =>
      simp only [map_cons, List.cons.injEq] at hmap
      have hde := digitChar_inj d (hds d (by simp)) e (hes e (by simp)) hmap.1
      rw [hde, ih (fun x hx => hds x (by simp [hx])) (fun x hx => hes x (by simp [hx])) hmap.2]

def value : List Nat → Nat
  | [] => 0
  | d :: ds => d + 10 * value ds

theorem value_append_zeros (ds : List Nat) (n : Nat) :
    value (ds ++ List.replicate n 0) = value ds := by
  induction ds with
  | nil =>
    induction n with
    | zero => rfl
    | succ n ih => simpa [replicate_succ, value] using ih
  | cons d ds ih => simp only [cons_append, value, ih]

def fixed : Nat → Nat → List Nat
  | 0, _ => []
  | w + 1, n => n % 10 :: fixed w (n / 10)

@[simp] theorem fixed_length (w n : Nat) : (fixed w n).length = w := by
  induction w generalizing n with
  | zero => rfl
  | succ w ih => simp [fixed, ih]

theorem fixed_lt (w n : Nat) : ∀ d ∈ fixed w n, d < 10 := by
  induction w generalizing n with
  | zero => simp [fixed]
  | succ w ih =>
    intro d hd
    rcases mem_cons.mp hd with rfl | hd
    · exact Nat.mod_lt _ (by decide)
    · exact ih (n / 10) d hd

theorem value_fixed (w n : Nat) (hn : n < 10 ^ w) : value (fixed w n) = n := by
  induction w generalizing n with
  | zero => simp at hn; simp [fixed, value, hn]
  | succ w ih =>
    have hdiv : n / 10 < 10 ^ w := by
      rw [Nat.pow_succ] at hn
      omega
    simp only [fixed, value, ih _ hdiv]
    omega

def digits : Nat → Nat → List Nat
  | 0, _ => []
  | fuel + 1, n => if n = 0 then [] else n % 10 :: digits fuel (n / 10)

theorem digits_lt (fuel n : Nat) : ∀ d ∈ digits fuel n, d < 10 := by
  induction fuel generalizing n with
  | zero => simp [digits]
  | succ fuel ih =>
    intro d hd
    by_cases hn : n = 0
    · simp [digits, hn] at hd
    · simp only [digits, hn, if_false, mem_cons] at hd
      rcases hd with rfl | hd
      · exact Nat.mod_lt _ (by decide)
      · exact ih (n / 10) d hd

theorem value_digits (fuel n : Nat) (hn : n ≤ fuel) : value (digits fuel n) = n := by
  induction fuel generalizing n with
  | zero => simp at hn; simp [digits, value, hn]
  | succ fuel ih =>
    by_cases hzero : n = 0
    · simp [digits, value, hzero]
    · simp only [digits, hzero, if_false, value, ih (n / 10) (by omega)]
      omega

def two (n : Nat) : List Char := text (fixed 2 n)

@[simp] theorem two_length (n : Nat) : (two n).length = 2 := by simp [two]

variable {m n : Nat}

theorem two_inj (hm : m < 100) (hn : n < 100) (h : two m = two n) : m = n := by
  have hds := text_inj (fixed_lt 2 m) (fixed_lt 2 n) h
  rw [← value_fixed 2 m hm, ← value_fixed 2 n hn, hds]

def yearDigits (n : Nat) : List Nat :=
  digits n n ++ List.replicate (4 - (digits n n).length) 0

theorem yearDigits_lt (n : Nat) : ∀ d ∈ yearDigits n, d < 10 := by
  intro d hd
  rcases mem_append.mp hd with hd | hd
  · exact digits_lt n n d hd
  · rw [eq_of_mem_replicate hd]
    decide

def yearText (y : Int) : List Char :=
  if y < 0 then '-' :: text (yearDigits y.natAbs) else text (yearDigits y.natAbs)

theorem yearDigits_inj (h : text (yearDigits m) = text (yearDigits n)) : m = n := by
  have hds := text_inj (yearDigits_lt m) (yearDigits_lt n) h
  have hval := congrArg value hds
  simpa [yearDigits, value_append_zeros, value_digits] using hval

theorem cons_minus_ne_text (hds : ∀ d ∈ ds, d < 10) (r : List Char) : '-' :: r ≠ text ds := by
  intro h
  obtain ⟨d, hd, hc⟩ := mem_text (show '-' ∈ text ds by rw [← h]; simp)
  exact (digitChar_ne d (hds d hd)).1 hc

theorem yearText_injective : Function.Injective yearText := by
  intro x y h
  unfold yearText at h
  split_ifs at h with hx hy hy
  · have := yearDigits_inj (List.cons.inj h).2
    omega
  · exact absurd h (cons_minus_ne_text (yearDigits_lt _) _)
  · exact absurd h.symm (cons_minus_ne_text (yearDigits_lt _) _)
  · have := yearDigits_inj h
    omega

theorem yearText_ne_T (y : Int) : ∀ c ∈ yearText y, c ≠ 'T' := by
  intro c hc
  have hdigit : ∀ c ∈ text (yearDigits y.natAbs), c ≠ 'T' := by
    intro c hc
    obtain ⟨d, hd, rfl⟩ := mem_text hc
    exact (digitChar_ne d (yearDigits_lt _ d hd)).2.1
  unfold yearText at hc
  split_ifs at hc
  · rcases mem_cons.mp hc with rfl | hc
    · decide
    · exact hdigit c hc
  · exact hdigit c hc

def fracDigits (n : Nat) : List Nat := (fixed 9 n).dropWhile (· = 0)

theorem fracDigits_inj (hm : m < 10 ^ 9) (hn : n < 10 ^ 9)
    (h : fracDigits m = fracDigits n) : m = n := by
  have hsplit : ∀ k, fixed 9 k = List.replicate (9 - (fracDigits k).length) 0 ++ fracDigits k := by
    intro k
    have htake : (fixed 9 k).takeWhile (· = 0) =
        List.replicate ((fixed 9 k).takeWhile (· = 0)).length 0 := by
      rw [eq_replicate_iff]
      exact ⟨rfl, fun d hd => by simpa using mem_takeWhile_imp hd⟩
    have happ := takeWhile_append_dropWhile (p := fun d : Nat => decide (d = 0))
      (l := fixed 9 k)
    have hlen := congrArg List.length happ
    rw [length_append, fixed_length] at hlen
    rw [← happ, htake]
    congr 2
    unfold fracDigits
    omega
  have hfixed : fixed 9 m = fixed 9 n := by rw [hsplit m, hsplit n, h]
  rw [← value_fixed 9 m hm, ← value_fixed 9 n hn, hfixed]

def fracText (n : Nat) : List Char :=
  if fracDigits n = [] then [] else '.' :: text (fracDigits n)

theorem fracText_inj (hm : m < 10 ^ 9) (hn : n < 10 ^ 9) (h : fracText m = fracText n) : m = n := by
  have hlt : ∀ k, ∀ d ∈ fracDigits k, d < 10 := fun k d hd =>
    fixed_lt 9 k d ((dropWhile_sublist _).subset hd)
  apply fracDigits_inj hm hn
  unfold fracText at h
  split_ifs at h with h1 h2 h2
  · rw [h1, h2]
  · exact text_inj (hlt m) (hlt n) (List.cons.inj h).2

def dateText (d : Int) : List Char :=
  let yd := yearDay d
  let md := splitMonth (monthLengths (isLeap yd.year)) yd.yday
  yearText yd.year ++ ('-' :: (two (md.1 + 1) ++ '-' :: two (md.2 + 1)))

def clockText (n : Nat) : List Char :=
  two (n / 3600000000000) ++ ':' :: (two (n / 60000000000 % 60)
    ++ ':' :: (two (n / 1000000000 % 60) ++ (fracText (n % 1000000000) ++ ['Z'])))

def formatRFC3339Nano (t : Time) : List Char :=
  dateText (t / 86400000000000) ++
    'T' :: clockText (t % 86400000000000).toNat

theorem two_ne_T (n : Nat) : ∀ c ∈ two n, c ≠ 'T' := by
  intro c hc
  obtain ⟨d, hd, rfl⟩ := mem_text hc
  exact (digitChar_ne d (fixed_lt 2 n d hd)).2.1

theorem dateText_ne_T (d : Int) : ∀ c ∈ dateText d, c ≠ 'T' := by
  intro c hc
  simp only [dateText, mem_append, mem_cons] at hc
  rcases hc with hc | rfl | hc | rfl | hc
  · exact yearText_ne_T _ c hc
  · decide
  · exact two_ne_T _ c hc
  · decide
  · exact two_ne_T _ c hc

theorem dateText_injective : Function.Injective dateText := by
  intro d e h
  have hsplit := append_inj' h (by simp)
  have hyear := yearText_injective hsplit.1
  have hmd := (List.cons.inj hsplit.2).2
  have hm := append_inj hmd (by simp)
  have hd := (List.cons.inj hm.2).2
  have hlen : ∀ b, ∀ m ∈ monthLengths b, m ≤ 31 := by decide
  have hbd := splitMonth_bounds _ _ (yday_lt d) (hlen _)
  have hbe := splitMonth_bounds _ _ (yday_lt e) (hlen _)
  have hmonths : ∀ b, (monthLengths b).length = 12 := by decide
  rw [hmonths] at hbd hbe
  have hmonth := two_inj (by omega) (by omega) hm.1
  have hday := two_inj (by omega) (by omega) hd
  have hpair : splitMonth (monthLengths (isLeap (yearDay d).year)) (yearDay d).yday =
      splitMonth (monthLengths (isLeap (yearDay e).year)) (yearDay e).yday :=
    Prod.ext (by omega) (by omega)
  have hyday : (yearDay d).yday = (yearDay e).yday := by
    rw [← joinMonth_splitMonth (monthLengths (isLeap (yearDay d).year)) (yearDay d).yday,
      hpair, hyear, joinMonth_splitMonth]
  apply yearDay_injective
  cases hdd : yearDay d
  cases hee : yearDay e
  simp_all

theorem clockText_inj (hm : m < 86400000000000) (hn : n < 86400000000000)
    (h : clockText m = clockText n) : m = n := by
  have h1 := append_inj h (by simp)
  have h2 := append_inj (List.cons.inj h1.2).2 (by simp)
  have h3 := append_inj (List.cons.inj h2.2).2 (by simp)
  have hhour := two_inj (by omega) (by omega) h1.1
  have hmin := two_inj (by omega) (by omega) h2.1
  have hsec := two_inj (by omega) (by omega) h3.1
  have hfrac := fracText_inj (Nat.mod_lt _ (by decide)) (Nat.mod_lt _ (by decide))
    (append_cancel_right h3.2)
  omega

theorem takeWhile_format (t : Time) :
    (formatRFC3339Nano t).takeWhile (· ≠ 'T') = dateText (t / 86400000000000) := by
  rw [formatRFC3339Nano, takeWhile_append_of_pos
    (fun c hc => by simpa using dateText_ne_T _ c hc)]
  simp

theorem formatRFC3339Nano_injective : Function.Injective formatRFC3339Nano := by
  intro (t : Int) (u : Int) h
  have hdate : dateText (t / 86400000000000) = dateText (u / 86400000000000) := by
    rw [← takeWhile_format, h, takeWhile_format]
  have hdays := dateText_injective hdate
  rw [formatRFC3339Nano, formatRFC3339Nano, hdate] at h
  have hclock := (List.cons.inj (append_cancel_left h)).2
  have ht := Int.emod_lt_of_pos t (show (0 : Int) < 86400000000000 by decide)
  have hu := Int.emod_lt_of_pos u (show (0 : Int) < 86400000000000 by decide)
  have hnanos := clockText_inj (by omega) (by omega) hclock
  have heq : @Eq Int t u := by omega
  exact heq

-- Leap day of 2024, with a fraction that ends in zeros.
example : formatRFC3339Nano 63844778096120000000 = "2024-02-29T04:34:56.12Z".toList := by
  decide +kernel

end OciJanus.Verified.Rfc3339
