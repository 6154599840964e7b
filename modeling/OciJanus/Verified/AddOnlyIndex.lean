import Mathlib.Data.List.Nodup

/-!
# An index that is only added to

Putting a row adds its entry under its subject; deleting a row leaves the index alone.
-/

namespace OciJanus.Verified.AddOnlyIndex

open Function List

variable {δ ρ ς ε : Type*}

structure Schema (δ ρ ς ε : Type*) where
  subject : ρ → Option ς
  indexed : ς → Bool
  entry : δ → ρ → ε
  name : ε → δ
  name_entry : ∀ d r, name (entry d r) = d

structure Pair (δ ρ ς ε : Type*) where
  rows : δ → Option ρ
  entries : ς → List ε

namespace Pair

variable (sch : Schema δ ρ ς ε)

def Refers (p : Pair δ ρ ς ε) (d : δ) (s : ς) : Prop :=
  ∃ r, p.rows d = some r ∧ sch.subject r = some s

def Lists (p : Pair δ ρ ς ε) : Prop :=
  ∀ s, ((p.entries s).map sch.name).Nodup ∧ ∀ d, d ∈ (p.entries s).map sch.name ↔ p.Refers sch d s

structure Wf (p : Pair δ ρ ς ε) : Prop where
  entered : ∀ d r s, p.rows d = some r → sch.subject r = some s → sch.indexed s = true →
    sch.entry d r ∈ p.entries s
  indexed : ∀ s e, e ∈ p.entries s → sch.indexed s = true

def insertEntry [DecidableEq ε] (es : List ε) (e : ε) : List ε :=
  if e ∈ es then es else es ++ [e]

theorem mem_insertEntry [DecidableEq ε] {es : List ε} {e e' : ε} :
    e' ∈ insertEntry es e ↔ e' ∈ es ∨ e' = e := by
  unfold insertEntry
  split_ifs with h
  · constructor
    · exact Or.inl
    · intro h'
      rcases h' with h' | h'
      · exact h'
      · exact h' ▸ h
  · simp

def enter [DecidableEq ς] [DecidableEq ε] (entries : ς → List ε) (d : δ) (r : ρ) (s : ς) : List ε :=
  if sch.subject r = some s ∧ sch.indexed s = true then
    insertEntry (entries s) (sch.entry d r)
  else entries s

def put [DecidableEq δ] [DecidableEq ς] [DecidableEq ε] (p : Pair δ ρ ς ε) (d : δ) (r : ρ) :
    Pair δ ρ ς ε :=
  ⟨update p.rows d (some r), enter sch p.entries d r⟩

def delete [DecidableEq δ] (p : Pair δ ρ ς ε) (d : δ) : Pair δ ρ ς ε :=
  ⟨update p.rows d none, p.entries⟩

variable {sch} {p : Pair δ ρ ς ε} {d : δ} {r : ρ}

section Enter

variable [DecidableEq ς] [DecidableEq ε]

theorem mem_enter {entries : ς → List ε} {s : ς} {e : ε} :
    e ∈ enter sch entries d r s ↔ e ∈ entries s ∨
        (sch.subject r = some s ∧ sch.indexed s = true ∧ e = sch.entry d r) := by
  unfold enter
  split_ifs with h
  · rw [mem_insertEntry]
    simp [h]
  · constructor
    · exact Or.inl
    · intro he
      rcases he with he | ⟨hs, hindexed, _⟩
      · exact he
      · exact absurd ⟨hs, hindexed⟩ h

theorem enter_eq_self {entries : ς → List ε}
    (h : ∀ s, sch.subject r = some s → sch.indexed s = true → sch.entry d r ∈ entries s) :
    enter sch entries d r = entries := by
  funext s
  unfold enter
  split_ifs with hs
  · rw [insertEntry, if_pos (h s hs.1 hs.2)]
  · rfl

end Enter

theorem wf_delete [DecidableEq δ] (h : p.Wf sch) : (p.delete d).Wf sch where
  entered := by
    intro d' r' s hrow
    by_cases hd : d' = d
    · subst hd
      simp [delete] at hrow
    · simp only [delete, update_of_ne hd] at hrow
      exact h.entered d' r' s hrow
  indexed := h.indexed

theorem wf_put [DecidableEq δ] [DecidableEq ς] [DecidableEq ε] (h : p.Wf sch) :
    (p.put sch d r).Wf sch where
  entered := by
    intro d' r' s hrow hsubject hindexed
    apply mem_enter.mpr
    by_cases hd : d' = d
    · subst hd
      simp only [put, update_self, Option.some.injEq] at hrow
      subst hrow
      exact Or.inr ⟨hsubject, hindexed, rfl⟩
    · simp only [put, update_of_ne hd] at hrow
      exact Or.inl (h.entered d' r' s hrow hsubject hindexed)
  indexed := by
    intro s e he
    rcases mem_enter.mp he with he | ⟨_, hindexed, _⟩
    · exact h.indexed s e he
    · exact hindexed

variable {s : ς}

theorem Refers.indexed (hwf : p.Wf sch) (h : p.Lists sch) (href : p.Refers sch d s) :
    sch.indexed s = true := by
  obtain ⟨e, he, _⟩ := mem_map.mp (((h s).2 d).mpr href)
  exact hwf.indexed s e he

theorem Lists.mem_iff (hwf : p.Wf sch) (h : p.Lists sch) {e : ε} :
    e ∈ p.entries s ↔ ∃ d r, p.rows d = some r ∧ sch.subject r = some s ∧ e = sch.entry d r := by
  constructor
  · intro he
    have hlisted : sch.name e ∈ (p.entries s).map sch.name := mem_map_of_mem he
    have href := ((h s).2 _).mp hlisted
    obtain ⟨r, hrow, hsubject⟩ := href
    have hentry := hwf.entered _ r s hrow hsubject (hwf.indexed s e he)
    refine ⟨sch.name e, r, hrow, hsubject, ?_⟩
    exact inj_on_of_nodup_map (h s).1 he hentry (sch.name_entry _ r).symm
  · rintro ⟨d, r, hrow, hsubject, rfl⟩
    exact hwf.entered d r s hrow hsubject (Refers.indexed hwf h ⟨r, hrow, hsubject⟩)

theorem lists_delete_iff [DecidableEq δ] (h : p.Lists sch) :
    (p.delete d).Lists sch ↔ ∀ s, ¬ p.Refers sch d s := by
  have hself : ∀ s, ¬ (p.delete d).Refers sch d s := by
    intro s href
    obtain ⟨r, hrow, _⟩ := href
    simp [delete] at hrow
  constructor
  · intro h' s href
    exact hself s (((h' s).2 d).mp (((h s).2 d).mpr href))
  · intro hnone s
    refine ⟨(h s).1, ?_⟩
    intro d'
    rw [show d' ∈ ((p.delete d).entries s).map sch.name ↔ _ from (h s).2 d']
    by_cases hd : d' = d
    · subst hd
      exact iff_of_false (hnone s) (hself s)
    · simp only [Refers, delete, update_of_ne hd]

variable [DecidableEq δ] [DecidableEq ς] [DecidableEq ε]

theorem refers_put_self : (p.put sch d r).Refers sch d s ↔ sch.subject r = some s := by
  simp [Refers, put]

theorem refers_put_ne {d' : δ} (hd : d' ≠ d) :
    (p.put sch d r).Refers sch d' s ↔ p.Refers sch d' s := by
  simp [Refers, put, update_of_ne hd]

theorem lists_put_new (h : p.Lists sch) (hnew : ∀ s, ¬ p.Refers sch d s)
    (hindexed : ∀ s, sch.subject r = some s → sch.indexed s = true) :
    (p.put sch d r).Lists sch := by
  have hunlisted : ∀ s, d ∉ (p.entries s).map sch.name := fun s hd => hnew s (((h s).2 d).mp hd)
  intro s
  have hmem : ∀ d', d' ∈ ((p.put sch d r).entries s).map sch.name ↔
      (p.put sch d r).Refers sch d' s := by
    intro d'
    have hentries : d' ∈ ((p.put sch d r).entries s).map sch.name ↔
        d' ∈ (p.entries s).map sch.name ∨ (sch.subject r = some s ∧ d' = d) := by
      simp only [put, mem_map, mem_enter]
      constructor
      · rintro ⟨e, he | ⟨hs, _, rfl⟩, rfl⟩
        · exact Or.inl ⟨e, he, rfl⟩
        · exact Or.inr ⟨hs, sch.name_entry d r⟩
      · rintro (⟨e, he, rfl⟩ | ⟨hs, rfl⟩)
        · exact ⟨e, Or.inl he, rfl⟩
        · exact ⟨_, Or.inr ⟨hs, hindexed s hs, rfl⟩, sch.name_entry d' r⟩
    rw [hentries, (h s).2 d']
    by_cases hd : d' = d
    · subst hd
      rw [refers_put_self]
      simp [hnew s]
    · rw [refers_put_ne hd]
      simp [hd]
  refine ⟨?_, hmem⟩
  show ((enter sch p.entries d r s).map sch.name).Nodup
  unfold enter
  split_ifs with hs
  · have hfresh : sch.entry d r ∉ p.entries s := by
      intro he
      exact hunlisted s (mem_map.mpr ⟨_, he, sch.name_entry d r⟩)
    rw [insertEntry, if_neg hfresh, map_append]
    apply List.Nodup.append (h s).1 (nodup_singleton _)
    simpa [sch.name_entry] using hunlisted s
  · exact (h s).1

theorem lists_put_iff (hwf : p.Wf sch) (h : p.Lists sch) :
    (p.put sch d r).Lists sch ↔ (∀ s, sch.subject r = some s → sch.indexed s = true) ∧
        ∀ old s, p.rows d = some old → sch.subject old = some s →
          sch.subject r = some s ∧ sch.entry d r = sch.entry d old := by
  constructor
  · intro h'
    refine ⟨fun s hs => Refers.indexed (wf_put hwf) h' (refers_put_self.mpr hs), ?_⟩
    intro old s hrow hs
    -- the old entry is still there, so the row must still be one of its subject
    have hold : sch.entry d old ∈ (p.put sch d r).entries s :=
      mem_enter.mpr (Or.inl ((Lists.mem_iff hwf h).mpr ⟨d, old, hrow, hs, rfl⟩))
    obtain ⟨d', r', hrow', hs', heq⟩ := (Lists.mem_iff (wf_put hwf) h').mp hold
    have hd : d' = d := by rw [← sch.name_entry d' r', ← heq, sch.name_entry]
    subst hd
    simp only [put, update_self, Option.some.injEq] at hrow'
    subst hrow'
    exact ⟨hs', heq.symm⟩
  · rintro ⟨hindexed, hsame⟩
    by_cases hnew : ∀ s, ¬ p.Refers sch d s
    · exact lists_put_new h hnew hindexed
    · simp only [not_forall, not_not] at hnew
      obtain ⟨s, old, hrow, hs⟩ := hnew
      obtain ⟨hsubject, hentry⟩ := hsame old s hrow hs
      have hentries : (p.put sch d r).entries = p.entries := by
        apply enter_eq_self
        intro s' hs' hindexed'
        rw [hsubject, Option.some.injEq] at hs'
        subst hs'
        rw [hentry]
        exact hwf.entered d old s hrow hs hindexed'
      intro s'
      rw [hentries]
      refine ⟨(h s').1, ?_⟩
      intro d'
      rw [(h s').2 d']
      by_cases hd : d' = d
      · subst hd
        rw [refers_put_self, hsubject]
        constructor
        · rintro ⟨r', hr', hs'⟩
          rw [hrow, Option.some.injEq] at hr'
          rw [← hs, ← hs', hr']
        · intro hs'
          exact ⟨old, hrow, hs.trans hs'⟩
      · rw [refers_put_ne hd]

end Pair

end OciJanus.Verified.AddOnlyIndex
