import Mathlib.Data.List.Sort
import Mathlib.Data.Prod.Lex

/-!
# Listing by pages with a key as the cursor

`Paged.exact_iff`: following the tokens reads the whole list exactly when every token leads to
the rows behind the page it ends.
-/

namespace OciJanus.Verified.Keyset

open List

section
variable {α κ : Type*} [LinearOrder κ] {f : α → κ} {l : List α}

/-- The rows in the order of their keys. -/
def ordered (f : α → κ) (l : List α) : List α := l.insertionSort fun a b => f a ≤ f b

theorem ordered_perm (f : α → κ) (l : List α) : (ordered f l).Perm l :=
  perm_insertionSort _ l

theorem mem_of_split {read rest : List α} {x : α} (hsplit : ordered f l = read ++ rest)
    (hx : x ∈ rest) : x ∈ l :=
  (ordered_perm f l).mem_iff.mp (hsplit ▸ mem_append_right read hx)

theorem ordered_strict (h : (l.map f).Nodup) : (ordered f l).Pairwise fun a b => f a < f b := by
  have : Std.Total fun a b => f a ≤ f b := ⟨fun _ _ => le_total _ _⟩
  have : IsTrans α fun a b => f a ≤ f b := ⟨fun _ _ _ => le_trans⟩
  have hkeys := pairwise_map.mp (((ordered_perm f l).map f).nodup_iff.mpr h)
  have hsorted := pairwise_insertionSort (fun a b => f a ≤ f b) l
  exact (hsorted.and hkeys).imp fun hab => lt_of_le_of_ne hab.1 hab.2

theorem nodup_ordered (h : (l.map f).Nodup) : (ordered f l).Nodup :=
  (ordered_strict h).imp fun hab => ne_of_apply_ne f hab.ne

theorem eq_ordered_iff (h : (l.map f).Nodup) {out : List α} :
    out.Perm l ∧ out.Pairwise (fun a b => f a < f b) ↔ out = ordered f l := by
  constructor
  · rintro ⟨hperm, hsorted⟩
    exact List.Perm.eq_of_pairwise (fun _ _ _ _ hab hba => absurd hba (lt_asymm hab)) hsorted
      (ordered_strict h) (hperm.trans (ordered_perm f l).symm)
  · rintro rfl
    exact ⟨ordered_perm f l, ordered_strict h⟩

theorem mem_behind_iff (h : (l.map f).Nodup) {read rest : List α} {a x : α}
    (hsplit : ordered f l = read ++ a :: rest) : x ∈ rest ↔ x ∈ l ∧ f a < f x := by
  have hstrict := ordered_strict h
  rw [← (ordered_perm f l).mem_iff, hsplit, mem_append, mem_cons]
  rw [hsplit, pairwise_append, pairwise_cons] at hstrict
  obtain ⟨-, ⟨hrest, -⟩, hread⟩ := hstrict
  refine ⟨fun hx => ⟨Or.inr (Or.inr hx), hrest x hx⟩, ?_⟩
  rintro ⟨hx | rfl | hx, hlt⟩
  · exact absurd hlt (lt_asymm (hread x hx a mem_cons_self))
  · exact absurd hlt (lt_irrefl _)
  · exact hx

theorem ordered_filter (h : (l.map f).Nodup) (p : α → Bool) :
    ordered f (l.filter p) = (ordered f l).filter p :=
  ((eq_ordered_iff (h.sublist (filter_sublist.map f))).mp
    ⟨(ordered_perm f l).filter p, (ordered_strict h).filter p⟩).symm

theorem map_ordered_congr {γ : Type*} {l' : List α} {φ : α → γ} (g : γ → κ)
    (hg : ∀ a, f a = g (φ a)) (h : (l.map f).Nodup) (hperm : (l'.map φ).Perm (l.map φ)) :
    (ordered f l').map φ = (ordered f l).map φ := by
  have hkeys := hperm.map g
  simp only [map_map, Function.comp_def, ← hg] at hkeys
  have hstrict : ∀ l, (l.map f).Nodup → ((ordered f l).map φ).Pairwise fun a b => g a < g b :=
    fun l h => pairwise_map.mpr ((ordered_strict h).imp fun hab => by rwa [← hg, ← hg])
  exact List.Perm.eq_of_pairwise (fun _ _ _ _ hab hba => absurd hba (lt_asymm hab))
    (hstrict l' (hkeys.nodup_iff.mpr h)) (hstrict l h)
    (((ordered_perm f l').map φ).trans (hperm.trans ((ordered_perm f l).map φ).symm))

end

section
variable {α : Type*} {l rest : List α} {p : α → Bool}

theorem take_split {n : Nat} (hn : 0 < n) (h : n ≤ l.length) :
    ∃ init a, l.take n = init ++ [a] ∧ init.length + 1 = n ∧ l = init ++ a :: l.drop n := by
  have htake : (l.take n).length = n := length_take_of_le h
  obtain ⟨init, a, hinit⟩ := (eq_nil_or_concat' (l.take n)).resolve_left fun hnil => by
    rw [hnil] at htake
    exact hn.ne htake
  refine ⟨init, a, hinit, by rw [← htake, hinit, length_append, length_singleton], ?_⟩
  conv_lhs => rw [← take_append_drop n l, hinit, append_assoc, singleton_append]

/-- A condition that the order keeps is met by the end of a list. -/
theorem filter_suffix (h : l.Pairwise fun a b => p a = true → p b = true) : l.filter p <:+ l := by
  induction l with
  | nil => exact suffix_refl []
  | cons a l ih =>
    obtain ⟨ha, hl⟩ := pairwise_cons.mp h
    cases hpa : p a with
    | false =>
      rw [filter_cons_of_neg (by simp [hpa])]
      exact (ih hl).trans (suffix_cons a l)
    | true =>
      exact ⟨[], filter_eq_self.mpr (forall_mem_cons.mpr ⟨hpa, fun b hb => ha b hb hpa⟩)⟩

theorem filter_eq_iff (h : l.Nodup) (hrest : rest <:+ l) :
    l.filter p = rest ↔ ∀ x ∈ l, p x = true ↔ x ∈ rest := by
  constructor
  · rintro rfl x hx
    simp [hx]
  · intro hmem
    obtain ⟨read, rfl⟩ := hrest
    have hread : ∀ x ∈ read, ¬ p x = true := fun x hx hpx =>
      disjoint_of_nodup_append h hx ((hmem x (mem_append_left _ hx)).mp hpx)
    have hrest : ∀ x ∈ rest, p x = true := fun x hx => (hmem x (mem_append_right _ hx)).mpr hx
    rw [filter_append, filter_eq_nil_iff.mpr hread, filter_eq_self.mpr hrest, nil_append]

theorem eq_of_head {a : α} {l₁ l₂ : List α} (h : l.Nodup) (h₁ : a :: l₁ <:+ l)
    (h₂ : a :: l₂ <:+ l) : l₁ = l₂ := by
  have hle : ∀ {l₁ l₂ : List α}, a :: l₂ <:+ l → a :: l₁ <:+ a :: l₂ → l₁ = l₂ := by
    intro l₁ l₂ h₂ hsuffix
    rcases suffix_cons_iff.mp hsuffix with heq | hlong
    · exact (cons.inj heq).2
    · have hnodup := h.sublist h₂.sublist
      exact absurd (hlong.subset mem_cons_self) (nodup_cons.mp hnodup).1
  rcases suffix_or_suffix_of_suffix h₁ h₂ with hsuffix | hsuffix
  · exact hle h₂ hsuffix
  · exact (hle h₁ hsuffix).symm

end

section
variable {κ : Type*} {n m : Nat} {keys : List κ}

/-- `P` holds at each end of a page that another call follows. -/
def PageEnds (n m : Nat) (keys : List κ) (P : κ → List κ → Prop) : Prop :=
  ∀ read k rest, keys = read ++ k :: rest → n ∣ read.length + 1 → m ≤ n + rest.length → P k rest

theorem PageEnds.congr {P Q : κ → List κ → Prop}
    (h : ∀ read k rest, keys = read ++ k :: rest → (P k rest ↔ Q k rest)) :
    PageEnds n m keys P ↔ PageEnds n m keys Q :=
  forall₃_congr fun read k rest => imp_congr_right fun hsplit => by rw [h read k rest hsplit]

theorem pageEnds_of_lt (hlen : keys.length < m) (P : κ → List κ → Prop) :
    PageEnds n m keys P := by
  rintro read k rest rfl hdvd hmore
  have := Nat.le_of_dvd (Nat.succ_pos _) hdvd
  rw [length_append, length_cons] at hlen
  omega

theorem pageEnds_cut (hn : 0 < n) (hm : n ≤ m) (hlen : m ≤ keys.length) (P : κ → List κ → Prop) :
    ∃ k, (keys.take n).getLast? = some k ∧
      (PageEnds n m keys P ↔ P k (keys.drop n) ∧ PageEnds n m (keys.drop n) P) := by
  obtain ⟨init, k, hinit, hlast, hsplit⟩ := take_split hn (hm.trans hlen)
  have htake : (keys.take n).length = n := length_take_of_le (hm.trans hlen)
  refine ⟨k, by rw [hinit, List.getLast?_concat], fun h => ⟨?_, ?_⟩, fun ⟨hk, hrest⟩ => ?_⟩
  · exact h init k _ hsplit ⟨1, by omega⟩ (by rw [length_drop]; omega)
  · intro read k' rest hdrop hdvd hmore
    refine h (keys.take n ++ read) k' rest ?_ ?_ hmore
    · rw [append_assoc, ← hdrop, take_append_drop]
    · rw [length_append, htake, Nat.add_assoc]
      exact (Nat.dvd_add_right (Nat.dvd_refl n)).mpr hdvd
  · intro read k' rest heq hdvd hmore
    obtain ⟨d, hd⟩ := hdvd
    have hle : n ≤ read.length + 1 := Nat.le_of_dvd (Nat.succ_pos _) ⟨d, hd⟩
    -- the end of the first page, or one of a later page
    rcases hle.eq_or_lt with hfirst | hlater
    · obtain ⟨-, htail⟩ := append_inj (hsplit.symm.trans heq) (by omega)
      obtain ⟨rfl, rfl⟩ := cons.inj htail
      exact hk
    · refine hrest (read.drop n) k' rest ?_ ?_ hmore
      · rw [heq, drop_append_of_le_length (by omega)]
      · rw [length_drop, show read.length - n + 1 = read.length + 1 - n by omega]
        exact Nat.dvd_sub ⟨d, hd⟩ (Nat.dvd_refl n)

end

section
variable {β ρ κ σ τ : Type} {call : Nat → Option τ → Option (List β × Option τ)}

/-- The client's loop: call, and call again with the token until there is none. -/
def follow (call : Nat → Option τ → Option (List β × Option τ)) :
    Nat → Nat → Option τ → Option (List β)
  | 0, _, _ => none
  | fuel + 1, i, token =>
    match call i token with
    | none => none
    | some (out, none) => some out
    | some (out, some next) => (follow call fuel (i + 1) (some next)).map (out ++ ·)

theorem follow_forall {P : β → Prop}
    (hcall : ∀ i t out next, call i (some t) = some (out, next) → ∀ x ∈ out, P x) {fuel i : Nat}
    {t : τ} {all : List β} (h : follow call fuel i (some t) = some all) : ∀ x ∈ all, P x := by
  induction fuel generalizing i t all with
  | zero => cases h
  | succ fuel ih =>
    rw [follow] at h
    split at h
    · cases h
    · rename_i hpage
      cases h
      exact hcall _ _ _ _ hpage
    · rename_i hpage
      obtain ⟨tail, htail, rfl⟩ := Option.map_eq_some_iff.mp h
      exact forall_mem_append.mpr ⟨hcall _ _ _ _ hpage, ih htail⟩

/-- A page, with the token of its last row if at least `m` rows were left. -/
def firstPage (tok : ρ → τ) (n m : Nat) (rest : List ρ) : List ρ × Option τ :=
  (rest.take n, if m ≤ rest.length then (rest.take n).getLast?.map tok else none)

variable [LinearOrder κ] {key : β → ρ} {f : ρ → κ} {rows : List ρ} {tok : ρ → τ}
  {since : ρ → Option σ} {p : Option σ → ρ → Bool} {n m : Nat}

/-- The rows that the token of this last row leads to: it is read back as `since`, and `p` finds
the rows behind that. -/
def remaining (f : ρ → κ) (rows : List ρ) (since : ρ → Option σ) (p : Option σ → ρ → Bool)
    (last : Option ρ) : Option (List ρ) :=
  (last.mapM since).map fun s => (ordered f rows).filter (p s)

/-- A call lists the first rows behind its token. -/
structure Paged (call : Nat → Option τ → Option (List β × Option τ)) (key : β → ρ) (f : ρ → κ)
    (rows : List ρ) (tok : ρ → τ) (since : ρ → Option σ) (p : Option σ → ρ → Bool) (n m : Nat) :
    Prop where
  pos : 0 < n
  bounds : n ≤ m ∧ m ≤ n + 1
  nodup : (rows.map f).Nodup
  all : ∀ x, p none x = true
  mono : ∀ s, ∀ a ∈ rows, ∀ b ∈ rows, f a < f b → p s a = true → p s b = true
  page : ∀ i last, (call i (last.map tok)).map (fun q => (q.1.map key, q.2)) =
    (remaining f rows since p last).map (firstPage tok n m)

/-- What the loop reads from a last row on. -/
def reads (call : Nat → Option τ → Option (List β × Option τ)) (key : β → ρ) (tok : ρ → τ)
    (fuel i : Nat) (last : Option ρ) : Option (List ρ) :=
  (follow call fuel i (last.map tok)).map (List.map key)

namespace Paged

variable (h : Paged call key f rows tok since p n m)
include h

theorem reads_succ (fuel i : Nat) (last : Option ρ) :
    reads call key tok (fuel + 1) i last = (remaining f rows since p last).bind fun rest =>
      if m ≤ rest.length then
        (reads call key tok fuel (i + 1) (rest.take n).getLast?).map (rest.take n ++ ·)
      else some (rest.take n) := by
  have hpage := h.page i last
  rw [reads, follow]
  cases hafter : remaining f rows since p last with
  | none =>
    rw [hafter, Option.map_none, Option.map_eq_none_iff] at hpage
    rw [hpage]
    rfl
  | some rest =>
    rw [hafter, Option.map_some, Option.map_eq_some_iff] at hpage
    obtain ⟨⟨out, next⟩, hcall, heq⟩ := hpage
    simp only [firstPage, Prod.mk.injEq] at heq
    obtain ⟨hout, rfl⟩ := heq
    rw [hcall, Option.bind_some]
    split_ifs with hmore
    · have hne : rest.take n ≠ [] := by
        rw [← length_pos_iff, length_take]
        have := h.pos
        have := h.bounds
        omega
      obtain ⟨r, hr⟩ := Option.isSome_iff_exists.mp (List.getLast?_isSome.mpr hne)
      rw [hr]
      simp [reads, ← hout, Function.comp_def]
    · exact congrArg some hout

theorem suffix {last : Option ρ} {rest : List ρ}
    (hrest : remaining f rows since p last = some rest) : rest <:+ ordered f rows := by
  obtain ⟨s, -, rfl⟩ := Option.map_eq_some_iff.mp hrest
  exact filter_suffix ((ordered_strict h.nodup).imp_of_mem fun ha hb =>
    h.mono s _ ((ordered_perm f rows).mem_iff.mp ha) _ ((ordered_perm f rows).mem_iff.mp hb))

theorem after_of_reads {fuel i : Nat} {r : ρ} {rest : List ρ} (hrest : rest <:+ ordered f rows)
    (hreads : reads call key tok fuel i (some r) = some rest) :
    remaining f rows since p (some r) = some rest := by
  cases fuel with
  | zero => cases hreads
  | succ fuel =>
    rw [h.reads_succ] at hreads
    obtain ⟨found, hfound, hpage⟩ := Option.bind_eq_some_iff.mp hreads
    rw [hfound]
    have := h.bounds
    obtain ⟨k, hk⟩ := Nat.exists_eq_add_one.mpr h.pos
    cases found with
    | nil => simpa [show m ≠ 0 by omega] using hpage
    | cons a found =>
      -- what is read begins with the first row that was found
      obtain ⟨tail, rfl⟩ : ∃ tail, rest = a :: tail := by
        rw [hk, take_succ_cons] at hpage
        split_ifs at hpage
        · obtain ⟨tail, -, rfl⟩ := Option.map_eq_some_iff.mp hpage
          exact ⟨_, rfl⟩
        · cases hpage
          exact ⟨_, rfl⟩
      rw [eq_of_head (nodup_ordered h.nodup) (h.suffix hfound) hrest]

theorem reads_iff {fuel i : Nat} {last : Option ρ} {rest : List ρ}
    (hafter : remaining f rows since p last = some rest) (hfuel : rest.length < fuel) :
    reads call key tok fuel i last = some rest ↔
      PageEnds n m rest fun r rest => remaining f rows since p (some r) = some rest := by
  induction fuel generalizing i last rest with
  | zero => cases hfuel
  | succ fuel ih =>
    rw [h.reads_succ, hafter, Option.bind_some]
    split_ifs with hmore
    · obtain ⟨r, hr, hcut⟩ := pageEnds_cut h.pos h.bounds.1 hmore
        fun r rest => remaining f rows since p (some r) = some rest
      have hdrop : rest.drop n <:+ ordered f rows := (drop_suffix n rest).trans (h.suffix hafter)
      have hlen : (rest.drop n).length < fuel := by
        rw [length_drop]
        have := h.pos
        have := h.bounds
        omega
      have htail : reads call key tok fuel (i + 1) (some r) = some (rest.drop n) ↔
          remaining f rows since p (some r) = some (rest.drop n) ∧ PageEnds n m (rest.drop n)
            fun r rest => remaining f rows since p (some r) = some rest :=
        ⟨fun hread => have hr := h.after_of_reads hdrop hread
          ⟨hr, (ih hr hlen).mp hread⟩, fun hr => (ih hr.1 hlen).mpr hr.2⟩
      rw [hcut, ← htail, hr, Option.map_eq_some_iff]
      constructor
      · rintro ⟨out, hout, heq⟩
        rw [hout, append_cancel_left (heq.trans (take_append_drop n rest).symm)]
      · exact fun hread => ⟨_, hread, take_append_drop n rest⟩
    · have := h.bounds
      simp [take_of_length_le (show rest.length ≤ n by omega), pageEnds_of_lt (not_le.mp hmore)]

/-- **The pages are the rows in their order** exactly when, at each end of a page, the token is read
back and finds the rows with a greater key and no other. -/
theorem exact_iff :
    (∃ out, follow call (out.length + 1) 0 none = some out ∧ (out.map key).Perm rows ∧
      (out.map key).Pairwise fun a b => f a < f b) ↔
      PageEnds n m (ordered f rows) fun r _ =>
        ∃ s, since r = some s ∧ ∀ x ∈ rows, p (some s) x = true ↔ f r < f x := by
  have hfirst : remaining f rows since p none = some (ordered f rows) := by simp [remaining, h.all]
  have hends : ∀ read r rest, ordered f rows = read ++ r :: rest →
      (remaining f rows since p (some r) = some rest ↔
        ∃ s, since r = some s ∧ ∀ x ∈ rows, p (some s) x = true ↔ f r < f x) := by
    intro read r rest hsplit
    have hrest : rest <:+ ordered f rows := ⟨read ++ [r], by simp [hsplit]⟩
    have hiff : ∀ s, (ordered f rows).filter (p (some s)) = rest ↔
        ∀ x ∈ rows, p (some s) x = true ↔ f r < f x := by
      intro s
      rw [filter_eq_iff (nodup_ordered h.nodup) hrest]
      refine forall_congr' fun x => ?_
      rw [(ordered_perm f rows).mem_iff, mem_behind_iff h.nodup hsplit]
      exact imp_congr_right fun hx => by rw [and_iff_right hx]
    simp [remaining, hiff]
  rw [← PageEnds.congr hends, ← h.reads_iff (i := 0) hfirst (Nat.lt_succ_self _), reads,
    Option.map_eq_some_iff]
  simp only [eq_ordered_iff h.nodup]
  constructor <;> rintro ⟨out, hout, heq⟩ <;> refine ⟨out, ?_, heq⟩
  · rwa [← heq, length_map]
  · rwa [← heq, length_map] at hout

end Paged

/-- A page of the rows in memory, with the key of its last row as the token. -/
def listPage (f : ρ → κ) (encode : κ → τ) (decode : τ → Option κ) (n : Nat) (rows : List ρ)
    (token : Option τ) : Option (List ρ × Option τ) := do
  let cursor ← token.mapM decode
  let out := (ordered f rows).dropWhile fun r => cursor.any fun c => ¬ c < f r
  return (out.take n, if n < out.length then (out.take n).getLast?.map (encode <| f ·) else none)

end

end OciJanus.Verified.Keyset
