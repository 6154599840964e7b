import Mathlib.Data.List.Forall2
import OciJanus.Verified.GoStrings

/-!
# Subject patterns

`Matches` says as a relation what a pattern stands for; `matchGlob_iff`: the matcher decides it.
-/

namespace OciJanus.Auth.SubjectGlob

open Verified Sha256 Utf8 GoStrings List

def star : UInt8 := 42

def slash : UInt8 := 47

def question : UInt8 := 63

def anySuffix (p : Bytes → Bool) : Bytes → Bool
  | [] => p []
  | c :: s => p (c :: s) || anySuffix p s

def anyInRun (p : Bytes → Bool) : Bytes → Bool
  | [] => p []
  | c :: s => p (c :: s) || (c != slash && anyInRun p s)

def matchGlob : Bytes → Bytes → Bool
  | [], s => s.isEmpty
  | b :: pat, s =>
    if b = star then
      match pat with
      | b' :: rest =>
        if b' = star then anySuffix (fun t => matchGlob rest t) s
        else anyInRun (fun t => matchGlob (b' :: rest) t) s
      | [] => anyInRun (fun t => matchGlob [] t) s
    else
      match s with
      | [] => false
      | c :: t =>
        if b = question then c != slash && matchGlob pat t
        else c == b && matchGlob pat t

def subjectMatches (pattern subject : String) : Bool :=
  matchGlob (stringBytes pattern) (stringBytes subject)

def hasLongRun : List Char → Bool
  | '*' :: '*' :: '*' :: _ => true
  | _ :: rest => hasLongRun rest
  | [] => false

def validateGlobSyntax (pattern : String) : Bool :=
  pattern != "" && !hasLongRun pattern.toList && pattern == trimSpace pattern

inductive Matches : Bytes → Bytes → Prop
  | nil : Matches [] []
  | deep {rest s : Bytes} (run : Bytes) (tail : Matches rest s) :
      Matches (star :: star :: rest) (run ++ s)
  | run {rest s : Bytes} (run : Bytes) (shallow : slash ∉ run) (single : rest.head? ≠ some star)
      (tail : Matches rest s) : Matches (star :: rest) (run ++ s)
  | one {rest s : Bytes} (c : UInt8) (shallow : c ≠ slash) (tail : Matches rest s) :
      Matches (question :: rest) (c :: s)
  | lit {rest s : Bytes} (b : UInt8) (plain : b ≠ star ∧ b ≠ question) (tail : Matches rest s) :
      Matches (b :: rest) (b :: s)

variable {s rest : Bytes} {b : UInt8}

theorem anySuffix_eq_true {p : Bytes → Bool} :
    anySuffix p s = true ↔ ∃ run t, s = run ++ t ∧ p t = true := by
  induction s with
  | nil =>
    constructor
    · exact fun h => ⟨[], [], rfl, h⟩
    · rintro ⟨run, t, hs, hp⟩
      obtain ⟨_, rfl⟩ := append_eq_nil_iff.mp hs.symm
      exact hp
  | cons c s ih =>
    rw [anySuffix, Bool.or_eq_true, ih]
    constructor
    · rintro (hp | ⟨run, t, rfl, hp⟩)
      · exact ⟨[], c :: s, rfl, hp⟩
      · exact ⟨c :: run, t, rfl, hp⟩
    · rintro ⟨run, t, hs, hp⟩
      cases run with
      | nil => exact Or.inl (by rw [hs]; exact hp)
      | cons d run =>
        obtain ⟨rfl, rfl⟩ := List.cons.inj hs
        exact Or.inr ⟨run, t, rfl, hp⟩

theorem anyInRun_eq_true {p : Bytes → Bool} :
    anyInRun p s = true ↔ ∃ run t, s = run ++ t ∧ slash ∉ run ∧ p t = true := by
  induction s with
  | nil =>
    constructor
    · exact fun h => ⟨[], [], rfl, not_mem_nil, h⟩
    · rintro ⟨run, t, hs, _, hp⟩
      obtain ⟨_, rfl⟩ := append_eq_nil_iff.mp hs.symm
      exact hp
  | cons c s ih =>
    rw [anyInRun, Bool.or_eq_true, Bool.and_eq_true, bne_iff_ne, ih]
    constructor
    · rintro (hp | ⟨hc, run, t, rfl, hrun, hp⟩)
      · exact ⟨[], c :: s, rfl, not_mem_nil, hp⟩
      · exact ⟨c :: run, t, rfl, by simp [Ne.symm hc, hrun], hp⟩
    · rintro ⟨run, t, hs, hrun, hp⟩
      cases run with
      | nil => exact Or.inl (by rw [hs]; exact hp)
      | cons d run =>
        obtain ⟨rfl, rfl⟩ := List.cons.inj hs
        obtain ⟨hd, hrest⟩ := not_or.mp (mt mem_cons.mpr hrun)
        exact Or.inr ⟨Ne.symm hd, run, t, rfl, hrest, hp⟩

theorem matchGlob_deep (rest s : Bytes) :
    matchGlob (star :: star :: rest) s = anySuffix (matchGlob rest) s := by
  simp [matchGlob]

theorem matchGlob_run (h : rest.head? ≠ some star) (s : Bytes) :
    matchGlob (star :: rest) s = anyInRun (matchGlob rest) s := by
  cases rest with
  | nil => simp [matchGlob]
  | cons b rest =>
    have hb : b ≠ star := by simpa using h
    simp [matchGlob, hb]

theorem matchGlob_one (rest s : Bytes) :
    matchGlob (question :: rest) s = true ↔
      ∃ c t, s = c :: t ∧ c ≠ slash ∧ matchGlob rest t = true := by
  have hne : question ≠ star := by decide
  cases s with
  | nil =>
    unfold matchGlob
    simp [hne]
  | cons c t =>
    rw [matchGlob.eq_def]
    simp [hne]

theorem matchGlob_lit (hb : b ≠ star ∧ b ≠ question) (rest s : Bytes) :
    matchGlob (b :: rest) s = true ↔ ∃ t, s = b :: t ∧ matchGlob rest t = true := by
  cases s with
  | nil =>
    unfold matchGlob
    simp [hb]
  | cons c t =>
    rw [matchGlob.eq_def]
    by_cases hc : c = b
    · subst hc
      simp [hb]
    · simp [hb, hc]

theorem Matches.cons_inv {pat : Bytes} (h : Matches (b :: pat) s) :
    (b = star ∧ ∃ rest run t, pat = star :: rest ∧ s = run ++ t ∧ Matches rest t) ∨
      (b = star ∧ pat.head? ≠ some star ∧ ∃ run t, s = run ++ t ∧ slash ∉ run ∧ Matches pat t) ∨
      (b = question ∧ ∃ c t, s = c :: t ∧ c ≠ slash ∧ Matches pat t) ∨
      ((b ≠ star ∧ b ≠ question) ∧ ∃ t, s = b :: t ∧ Matches pat t) := by
  cases h with
  | deep run tail => exact Or.inl ⟨rfl, _, run, _, rfl, rfl, tail⟩
  | run run shallow single tail =>
    exact Or.inr (Or.inl ⟨rfl, single, run, _, rfl, shallow, tail⟩)
  | one c shallow tail => exact Or.inr (Or.inr (Or.inl ⟨rfl, c, _, rfl, shallow, tail⟩))
  | lit _ plain tail => exact Or.inr (Or.inr (Or.inr ⟨plain, _, rfl, tail⟩))

theorem matches_deep :
    Matches (star :: star :: rest) s ↔ ∃ run t, s = run ++ t ∧ Matches rest t := by
  constructor
  · intro h
    rcases h.cons_inv with ⟨_, _, run, t, heq, hs, ht⟩ | ⟨_, hno, _⟩ | ⟨hq, _⟩ | ⟨hno, _⟩
    · cases heq
      exact ⟨run, t, hs, ht⟩
    · exact absurd rfl hno
    · exact absurd hq (by decide)
    · exact absurd rfl hno.1
  · rintro ⟨run, t, rfl, ht⟩
    exact .deep run ht

theorem matches_run (h : rest.head? ≠ some star) :
    Matches (star :: rest) s ↔ ∃ run t, s = run ++ t ∧ slash ∉ run ∧ Matches rest t := by
  constructor
  · intro hm
    rcases hm.cons_inv with ⟨_, _, _, _, rfl, _⟩ | ⟨_, _, hrun⟩ | ⟨hq, _⟩ | ⟨hno, _⟩
    · exact absurd rfl h
    · exact hrun
    · exact absurd hq (by decide)
    · exact absurd rfl hno.1
  · rintro ⟨run, t, rfl, hrun, ht⟩
    exact .run run hrun h ht

theorem matches_one :
    Matches (question :: rest) s ↔ ∃ c t, s = c :: t ∧ c ≠ slash ∧ Matches rest t := by
  constructor
  · intro h
    rcases h.cons_inv with ⟨hs, _⟩ | ⟨hs, _⟩ | ⟨_, hone⟩ | ⟨hno, _⟩
    · exact absurd hs (by decide)
    · exact absurd hs (by decide)
    · exact hone
    · exact absurd rfl hno.2
  · rintro ⟨c, t, rfl, hc, ht⟩
    exact .one c hc ht

theorem matches_lit (hb : b ≠ star ∧ b ≠ question) :
    Matches (b :: rest) s ↔ ∃ t, s = b :: t ∧ Matches rest t := by
  constructor
  · intro h
    rcases h.cons_inv with ⟨hs, _⟩ | ⟨hs, _⟩ | ⟨hs, _⟩ | ⟨_, hlit⟩
    · exact absurd hs hb.1
    · exact absurd hs hb.1
    · exact absurd hs hb.2
    · exact hlit
  · rintro ⟨t, rfl, ht⟩
    exact .lit b hb ht

theorem matches_nil : Matches [] s ↔ s = [] := by
  constructor
  · intro h
    cases h
    rfl
  · rintro rfl
    exact .nil

theorem matchGlob_iff (pat s : Bytes) : matchGlob pat s = true ↔ Matches pat s := by
  -- `**` takes two bytes off the pattern, so the induction is on its length
  induction hn : pat.length using Nat.strong_induction_on generalizing pat s with
  | _ n ih =>
    have ih' : ∀ p, p.length < n → ∀ t, matchGlob p t = true ↔ Matches p t :=
      fun p hp t => ih p.length hp p t rfl
    cases pat with
    | nil => rw [matches_nil, matchGlob, List.isEmpty_iff]
    | cons b pat =>
      have hpat := ih' pat (by rw [← hn]; exact Nat.lt_succ_self _)
      by_cases hb : b = star
      · subst hb
        by_cases hdeep : pat.head? = some star
        · obtain ⟨rest, rfl⟩ : ∃ rest, pat = star :: rest :=
            ⟨pat.tail, (cons_head?_tail hdeep).symm⟩
          have hrest := ih' rest (by rw [← hn]; simp only [length_cons]; omega)
          rw [matchGlob_deep, anySuffix_eq_true, matches_deep]
          simp only [hrest]
        · rw [matchGlob_run hdeep, anyInRun_eq_true, matches_run hdeep]
          simp only [hpat]
      · by_cases hq : b = question
        · subst hq
          rw [matchGlob_one, matches_one]
          simp only [hpat]
        · rw [matchGlob_lit ⟨hb, hq⟩, matches_lit ⟨hb, hq⟩]
          simp only [hpat]

inductive Token where
  | deep
  | run
  | one
  | lit (b : UInt8)

def tokens : Bytes → List Token
  | [] => []
  | b :: pat =>
    if b = star then
      match pat with
      | [] => [.run]
      | b' :: rest => if b' = star then .deep :: tokens rest else .run :: tokens (b' :: rest)
    else if b = question then .one :: tokens pat
    else .lit b :: tokens pat

def Token.Takes : Token → Bytes → Prop
  | .deep, _ => True
  | .run, piece => slash ∉ piece
  | .one, piece => ∃ c, c ≠ slash ∧ piece = [c]
  | .lit b, piece => piece = [b]

def Splits (ts : List Token) (s : Bytes) : Prop :=
  ∃ pieces, List.Forall₂ Token.Takes ts pieces ∧ pieces.flatten = s

theorem splits_nil : Splits [] s ↔ s = [] := by
  simp [Splits, eq_comm]

theorem splits_cons {t : Token} {ts : List Token} :
    Splits (t :: ts) s ↔ ∃ piece rest, s = piece ++ rest ∧ t.Takes piece ∧ Splits ts rest := by
  constructor
  · rintro ⟨_, hpieces, rfl⟩
    obtain ⟨piece, pieces, htakes, hrest, rfl⟩ := forall₂_cons_left_iff.mp hpieces
    exact ⟨piece, pieces.flatten, rfl, htakes, pieces, hrest, rfl⟩
  · rintro ⟨piece, _, rfl, htakes, pieces, hrest, rfl⟩
    exact ⟨piece :: pieces, .cons htakes hrest, rfl⟩

theorem matches_iff_splits (pat s : Bytes) : Matches pat s ↔ Splits (tokens pat) s := by
  fun_induction tokens pat generalizing s with
  | case1 => rw [matches_nil, splits_nil]
  | case2 =>
    have hsingle : ([] : Bytes).head? ≠ some star := by simp
    simp [matches_run hsingle, splits_cons, splits_nil, matches_nil, Token.Takes]
  | case3 rest ih => simp [matches_deep, splits_cons, ih, Token.Takes]
  | case4 b' rest hb' ih =>
    have hsingle : (b' :: rest).head? ≠ some star := by simpa using hb'
    simp [matches_run hsingle, splits_cons, ih, Token.Takes]
  | case5 pat _ ih =>
    simp only [matches_one, splits_cons, ih, Token.Takes]
    constructor
    · rintro ⟨c, t, rfl, hc, ht⟩
      exact ⟨[c], t, rfl, ⟨c, hc, rfl⟩, ht⟩
    · rintro ⟨_, t, rfl, ⟨c, hc, rfl⟩, ht⟩
      exact ⟨c, t, rfl, hc, ht⟩
  | case6 b pat hb hq ih => simp [matches_lit ⟨hb, hq⟩, splits_cons, ih, Token.Takes]

/-- **Patterns mean what the documentation says.** -/
theorem subjectMatches_iff_splits (pattern subject : String) :
    subjectMatches pattern subject = true ↔
      Splits (tokens (stringBytes pattern)) (stringBytes subject) := by
  rw [← matches_iff_splits]
  exact matchGlob_iff _ _

end OciJanus.Auth.SubjectGlob
