import Mathlib.Data.List.Nodup
import Mathlib.Data.List.Perm.Subperm

/-!
# Chains linked by keys

Under `Rooted` a linked list from genesis cannot revisit a key. `trail` follows `next` while the
rows pass a check.
-/

namespace OciJanus.Verified.LinkedChain

open List

structure Links (α κ : Type*) where
  (prev own : α → κ)

namespace Links

variable {α κ : Type*} (L : Links α κ)

def Linked : κ → List α → Prop
  | _, [] => True
  | k, r :: l => L.prev r = k ∧ Linked (L.own r) l

def tip : κ → List α → κ
  | k, [] => k
  | _, r :: l => tip (L.own r) l

@[simp] theorem linked_nil (k : κ) : L.Linked k [] := trivial

@[simp] theorem linked_cons (k : κ) (r : α) (l : List α) :
    L.Linked k (r :: l) ↔ L.prev r = k ∧ L.Linked (L.own r) l := Iff.rfl

@[simp] theorem tip_nil (k : κ) : L.tip k [] = k := rfl

@[simp] theorem tip_cons (k : κ) (r : α) (l : List α) : L.tip k (r :: l) = L.tip (L.own r) l := rfl

theorem tip_append_singleton (k : κ) (l : List α) (r : α) : L.tip k (l ++ [r]) = L.own r := by
  induction l generalizing k with
  | nil => rfl
  | cons s l ih => exact ih (L.own s)

theorem linked_append (k : κ) (l m : List α) :
    L.Linked k (l ++ m) ↔ L.Linked k l ∧ L.Linked (L.tip k l) m := by
  induction l generalizing k with
  | nil => simp
  | cons r l ih => simp [ih, and_assoc]

variable {L} {k : κ} {l : List α}

theorem Linked.initial_part {m : List α} (h : L.Linked k m) (hl : l <+: m) : L.Linked k l := by
  obtain ⟨r, rfl⟩ := hl
  exact ((L.linked_append k l r).mp h).1

theorem Linked.prev_mem (h : L.Linked k l) {r : α} (hr : r ∈ l) :
    L.prev r = k ∨ ∃ s ∈ l, L.prev r = L.own s := by
  induction l generalizing k with
  | nil => simp at hr
  | cons s l ih =>
    rcases mem_cons.mp hr with rfl | hr
    · exact .inl h.1
    · rcases ih h.2 hr with hs | ⟨s', hs', heq⟩
      · exact .inr ⟨s, by simp, hs⟩
      · exact .inr ⟨s', by simp [hs'], heq⟩

theorem Linked.prev_zero (h : L.Linked k l) (hl : 0 < l.length) : L.prev l[0] = k := by
  cases l with
  | nil => simp at hl
  | cons r l => exact h.1

theorem Linked.prev_succ (h : L.Linked k l) (i : Nat)
    (hi : i + 1 < l.length) : L.prev l[i + 1] = L.own l[i] := by
  induction l generalizing k i with
  | nil => simp at hi
  | cons r l ih =>
    cases i with
    | zero => exact h.2.prev_zero (by simpa using hi)
    | succ i => exact ih h.2 i (by simpa using hi)

structure Rooted (L : Links α κ) (g : κ) (P : α → Prop) : Prop where
  prev_eq : ∀ r s, P r → P s → L.own r = L.own s → L.prev r = L.prev s
  own_ne : ∀ r, P r → L.own r ≠ g

variable {g : κ} {P : α → Prop}

theorem Linked.prev_ne_of_lt (h : L.Linked g l) (hP : ∀ r ∈ l, P r)
    (hroot : Rooted L g P) (i j : Nat) (hij : i < j) (hj : j < l.length) :
    L.prev l[i] ≠ L.prev l[j] := by
  induction i generalizing j with
  | zero =>
    intro heq
    obtain ⟨j, rfl⟩ : ∃ j', j = j' + 1 := ⟨j - 1, by omega⟩
    rw [h.prev_zero (by omega), h.prev_succ j hj] at heq
    exact hroot.own_ne _ (hP _ (getElem_mem _)) heq.symm
  | succ i ih =>
    intro heq
    obtain ⟨j, rfl⟩ : ∃ j', j = j' + 1 := ⟨j - 1, by omega⟩
    rw [h.prev_succ i (by omega), h.prev_succ j hj] at heq
    exact ih j (by omega) (by omega) (hroot.prev_eq _ _ (hP _ (getElem_mem _))
        (hP _ (getElem_mem _)) heq)

theorem Linked.nodup_prev (h : L.Linked g l) (hP : ∀ r ∈ l, P r)
    (hroot : Rooted L g P) : (l.map L.prev).Nodup := by
  refine pairwise_iff_getElem.mpr ?_
  intro i j hi hj hij
  simp only [getElem_map]
  exact h.prev_ne_of_lt hP hroot i j hij (by simpa using hj)

theorem Linked.nodup (h : L.Linked g l) (hP : ∀ r ∈ l, P r) (hroot : Rooted L g P) : l.Nodup :=
  (h.nodup_prev hP hroot).of_map _

theorem Linked.nodup_own (h : L.Linked g l) (hP : ∀ r ∈ l, P r)
    (hroot : Rooted L g P) : (l.map L.own).Nodup := by
  refine (nodup_map_iff_inj_on (h.nodup hP hroot)).mpr ?_
  intro r hr s hs heq
  exact inj_on_of_nodup_map (h.nodup_prev hP hroot) hr hs
    (hroot.prev_eq r s (hP r hr) (hP s hs) heq)

section Walk

variable [DecidableEq κ] (L)

def next (rows : List α) (k : κ) : Option α :=
  rows.find? fun r => L.prev r = k

def trail (rows : List α) (ok : α → Bool) : Nat → κ → List α
  | 0, _ => []
  | n + 1, k =>
    match next L rows k with
    | none => []
    | some r => if ok r then r :: trail rows ok n (L.own r) else []

variable {L} {rows : List α} {ok : α → Bool}

variable {r : α}

theorem prev_of_next (h : L.next rows k = some r) : L.prev r = k := by
  simpa using List.find?_some h

theorem mem_of_next (h : L.next rows k = some r) : r ∈ rows :=
  mem_of_find?_eq_some h

theorem next_eq_none_iff : L.next rows k = none ↔ ∀ r ∈ rows, L.prev r ≠ k := by
  simp [next]

theorem next_prev (hnd : (rows.map L.prev).Nodup) (hr : r ∈ rows) :
    L.next rows (L.prev r) = some r := by
  cases hnext : L.next rows (L.prev r) with
  | none => exact absurd rfl (next_eq_none_iff.mp hnext r hr)
  | some s =>
    rw [inj_on_of_nodup_map hnd (mem_of_next hnext) hr (prev_of_next hnext)]

theorem trail_linked (n : Nat) (k : κ) : L.Linked k (L.trail rows ok n k) := by
  induction n generalizing k with
  | zero => trivial
  | succ n ih =>
    unfold trail
    split
    · trivial
    · rename_i r hr
      split
      · exact ⟨prev_of_next hr, ih _⟩
      · trivial

theorem trail_mem (n : Nat) (k : κ) : ∀ r ∈ L.trail rows ok n k, r ∈ rows ∧ ok r = true := by
  induction n generalizing k with
  | zero => simp [trail]
  | succ n ih =>
    unfold trail
    split
    · simp
    · rename_i r hr
      split
      · rename_i hok
        intro s hs
        rcases mem_cons.mp hs with rfl | hs
        · exact ⟨mem_of_next hr, hok⟩
        · exact ih _ s hs
      · simp

theorem trail_stop (n : Nat) (k : κ) (h : (L.trail rows ok n k).length < n) :
    ∀ r, L.next rows (L.tip k (L.trail rows ok n k)) = some r → ok r = false := by
  induction n generalizing k with
  | zero => simp at h
  | succ n ih =>
    revert h
    unfold trail
    split
    · rename_i hnone
      intro _ r hr
      simp [hnone] at hr
    · rename_i s hs
      split
      · intro h
        exact ih _ (by simpa using h)
      · rename_i hok
        intro _ r hr
        rw [tip_nil, hs, Option.some.injEq] at hr
        simpa [hr] using hok

theorem prefix_trail (hnd : (rows.map L.prev).Nodup) {n : Nat}
    (hl : L.Linked k l) (hmem : ∀ r ∈ l, r ∈ rows ∧ ok r = true)
    (hn : l.length ≤ n) : l <+: L.trail rows ok n k := by
  induction l generalizing k n with
  | nil => exact nil_prefix
  | cons r l ih =>
    obtain ⟨n, rfl⟩ : ∃ m, n = m + 1 :=
      ⟨n - 1, by simp only [length_cons] at hn; omega⟩
    obtain ⟨hr, hok⟩ := hmem r (by simp)
    have hnext : L.next rows k = some r := hl.1 ▸ next_prev hnd hr
    rw [trail, hnext]
    simp only [hok, if_true, prefix_cons_inj]
    exact ih hl.2 (fun s hs => hmem s (by simp [hs])) (by simpa using hn)

end Walk

section Arranged

variable (L) (g : κ) (ok : α → Prop)

def Arranged (rows : List α) : Prop :=
  ∃ l : List α, l.Perm rows ∧ L.Linked g l ∧ ∀ r ∈ l, ok r

variable {L} {g} {ok} {rows : List α}

theorem Arranged.ok_of_mem (h : L.Arranged g ok rows) {r : α} (hr : r ∈ rows) : ok r := by
  obtain ⟨l, hperm, -, hok⟩ := h
  exact hok r (hperm.mem_iff.mpr hr)

theorem not_arranged_of_missing {r : α} (hr : r ∈ rows) (hg : L.prev r ≠ g)
    (hmiss : ∀ s ∈ rows, L.own s ≠ L.prev r) : ¬ L.Arranged g ok rows := by
  rintro ⟨l, hperm, hlink, -⟩
  rcases hlink.prev_mem (hperm.mem_iff.mpr hr) with h | ⟨s, hs, h⟩
  · exact hg h
  · exact hmiss s (hperm.mem_iff.mp hs) h.symm

theorem Arranged.of_perm {rows' : List α} (h : L.Arranged g ok rows)
    (hperm : rows.Perm rows') : L.Arranged g ok rows' := by
  obtain ⟨l, hl, hlink, hok⟩ := h
  exact ⟨l, hl.trans hperm, hlink, hok⟩

end Arranged

end Links

end OciJanus.Verified.LinkedChain
