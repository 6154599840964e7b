import Mathlib.Data.List.Nodup

/-!
# Tables with a primary key

No two rows have the same key, and a rewrite keeps the key.
-/

namespace OciJanus.Verified.KeyedTable

open List

structure Table (ρ κ : Type*) (key : ρ → κ) where
  rows : List ρ
  nodup : (rows.map key).Nodup

namespace Table

variable {ρ κ : Type*} [DecidableEq κ] {key : ρ → κ}

def empty : Table ρ κ key := ⟨[], nodup_nil⟩

def single (r : ρ) : Table ρ κ key := ⟨[r], nodup_singleton (key r)⟩

def get (t : Table ρ κ key) (k : κ) : Option ρ := t.rows.find? fun r => key r = k

variable {r s : ρ} {t' : Table ρ κ key}

theorem mem_of_get {t : Table ρ κ key} {k : κ} (h : t.get k = some r) :
    r ∈ t.rows := mem_of_find?_eq_some h

theorem key_of_get {t : Table ρ κ key} {k : κ} (h : t.get k = some r) : key r = k := by
  simpa using List.find?_some h

omit [DecidableEq κ] in
theorem eq_of_key_eq (t : Table ρ κ key) (hr : r ∈ t.rows) (hs : s ∈ t.rows)
    (hk : key r = key s) : r = s :=
  inj_on_of_nodup_map t.nodup hr hs hk

theorem get_key (t : Table ρ κ key) (hr : r ∈ t.rows) : t.get (key r) = some r := by
  have hsome : (t.get (key r)).isSome := List.find?_isSome.mpr ⟨r, hr, by simp⟩
  obtain ⟨s, hs⟩ := Option.isSome_iff_exists.mp hsome
  rw [hs, t.eq_of_key_eq (mem_of_get hs) hr (key_of_get hs)]

theorem get_eq_some_iff {t : Table ρ κ key} {k : κ} :
    t.get k = some r ↔ r ∈ t.rows ∧ key r = k := by
  refine ⟨fun h => ⟨mem_of_get h, key_of_get h⟩, ?_⟩
  rintro ⟨hr, rfl⟩
  exact t.get_key hr

theorem mem_rows_iff {t : Table ρ κ key} : r ∈ t.rows ↔ t.get (key r) = some r := by
  simp [get_eq_some_iff]

theorem get_of_subset {t : Table ρ κ key} (h : t.rows ⊆ t'.rows) {k : κ}
    (hget : t.get k = some r) : t'.get k = some r := by
  rw [← key_of_get hget]
  exact t'.get_key (h (mem_of_get hget))

theorem perm_cons {t : Table ρ κ key} (hnew : t.get (key r) = none)
    (hr : t'.get (key r) = some r) (hothers : ∀ k, k ≠ key r → t'.get k = t.get k) :
    t'.rows.Perm (r :: t.rows) := by
  refine (perm_ext_iff_of_nodup (List.Nodup.of_map key t'.nodup) (nodup_cons.mpr
    ⟨by simp [mem_rows_iff, hnew], List.Nodup.of_map key t.nodup⟩)).mpr fun s => ?_
  rw [mem_cons, mem_rows_iff, mem_rows_iff]
  by_cases hkey : key s = key r
  · simpa [hkey, hnew, hr] using eq_comm
  · have hne : s ≠ r := fun h => hkey (h ▸ rfl)
    simp [hothers _ hkey, hne]

def mapRows (t : Table ρ κ key) (f : ρ → ρ) (hf : ∀ r, key (f r) = key r) : Table ρ κ key where
  rows := t.rows.map f
  nodup := by
    have hkeys : key ∘ f = key := funext hf
    rw [map_map, hkeys]
    exact t.nodup

def modify (t : Table ρ κ key) (k : κ) (f : ρ → ρ) (hf : ∀ r, key (f r) = key r) : Table ρ κ key :=
  t.mapRows (fun r => if key r = k then f r else r) fun r => by
    show key (if key r = k then f r else r) = key r
    split
    · exact hf r
    · rfl

def insert? (t : Table ρ κ key) (r : ρ) : Option (Table ρ κ key) :=
  if h : key r ∈ t.rows.map key then none
  else
    some
      { rows := t.rows ++ [r]
        nodup := by
          rw [map_append]
          exact t.nodup.append (by simp) (by simpa using h) }

def insertNew (t : Table ρ κ key) (r : ρ) : Table ρ κ key := (t.insert? r).getD t

def upsert (t : Table ρ κ key) (r : ρ) (f : ρ → ρ) (hf : ∀ s, key (f s) = key s) : Table ρ κ key :=
  (t.insert? r).getD (t.modify (key r) f hf)

def remove (t : Table ρ κ key) (p : ρ → Bool) : Table ρ κ key where
  rows := t.rows.filter fun r => !p r
  nodup := t.nodup.sublist (filter_sublist.map key)

variable {t : Table ρ κ key} {k : κ} {f : ρ → ρ} {hf : ∀ r, key (f r) = key r}

theorem get_mapRows : (t.mapRows f hf).get k = (t.get k).map f := by
  show (t.rows.map f).find? _ = (t.rows.find? _).map f
  rw [List.find?_map]
  congr 2
  funext r
  simp [hf]

theorem mem_modify_iff :
    r ∈ (t.modify k f hf).rows ↔ (r ∈ t.rows ∧ key r ≠ k) ∨ ∃ s ∈ t.rows, key s = k ∧ r = f s := by
  show r ∈ t.rows.map _ ↔ _
  rw [mem_map]
  constructor
  · rintro ⟨s, hs, rfl⟩
    by_cases hk : key s = k
    · exact Or.inr ⟨s, hs, hk, by rw [if_pos hk]⟩
    · exact Or.inl (by rw [if_neg hk]; exact ⟨hs, hk⟩)
  · rintro (⟨hr, hk⟩ | ⟨s, hs, hk, rfl⟩)
    · exact ⟨r, hr, if_neg hk⟩
    · exact ⟨s, hs, if_pos hk⟩

theorem get_modify_self : (t.modify k f hf).get k = (t.get k).map f := by
  unfold modify
  rw [get_mapRows]
  cases h : t.get k with
  | none => rfl
  | some r => simp [key_of_get h]

theorem get_modify_ne {k' : κ} (hk : k' ≠ k) : (t.modify k f hf).get k' = t.get k' := by
  unfold modify
  rw [get_mapRows]
  cases h : t.get k' with
  | none => rfl
  | some r =>
    have hne : key r ≠ k := by rwa [key_of_get h]
    simp [hne]

theorem insert?_eq_some (h : t.insert? r = some t') :
    t.get (key r) = none ∧ t'.rows = t.rows ++ [r] := by
  unfold insert? at h
  split_ifs at h with hmem
  cases h
  refine ⟨?_, rfl⟩
  unfold get
  rw [List.find?_eq_none]
  intro s hs hkey
  exact hmem (mem_map.mpr ⟨s, hs, of_decide_eq_true hkey⟩)

theorem get_insert? (h : t.insert? r = some t') :
    t'.get k = if key r = k then some r else t.get k := by
  obtain ⟨hnone, hrows⟩ := insert?_eq_some h
  unfold get
  rw [hrows, List.find?_append]
  by_cases hk : key r = k
  · subst hk
    rw [show t.rows.find? (fun s => key s = key r) = none from hnone]
    simp
  · simp [hk]

theorem get_eq_none_iff : t.get k = none ↔ ∀ r ∈ t.rows, key r ≠ k := by
  simp [get]

theorem insert?_eq_none_iff : t.insert? r = none ↔ t.get (key r) ≠ none := by
  unfold insert?
  split_ifs with hmem
  · obtain ⟨s, hs, hkey⟩ := mem_map.mp hmem
    rw [← hkey, t.get_key hs]
    simp
  · have hnone : t.get (key r) = none :=
      get_eq_none_iff.mpr fun s hs hkey => hmem (mem_map.mpr ⟨s, hs, hkey⟩)
    simp [hnone]

theorem mem_insertNew : s ∈ (t.insertNew r).rows ↔ s ∈ t.rows ∨ (s = r ∧ t.get (key r) = none) := by
  unfold insertNew
  cases hi : t.insert? r with
  | some t' =>
    obtain ⟨hnone, hrows⟩ := insert?_eq_some hi
    rw [Option.getD_some, hrows]
    simp [hnone]
  | none =>
    have htaken := insert?_eq_none_iff.mp hi
    simp [htaken]

theorem get_insertNew (h : t.get (key r) = none) :
    (t.insertNew r).get k = if key r = k then some r else t.get k := by
  unfold insertNew
  cases hi : t.insert? r with
  | some t' => exact get_insert? hi
  | none => exact absurd h (insert?_eq_none_iff.mp hi)

theorem get_insertNew_eq_none_iff : (t.insertNew r).get k = none ↔ t.get k = none ∧ key r ≠ k := by
  rw [get_eq_none_iff, get_eq_none_iff]
  constructor
  · intro h
    have hold : ∀ s ∈ t.rows, key s ≠ k := fun s hs => h s (mem_insertNew.mpr (Or.inl hs))
    refine ⟨hold, fun hk => ?_⟩
    have hnone : t.get (key r) = none := by rwa [hk, get_eq_none_iff]
    exact h r (mem_insertNew.mpr (Or.inr ⟨rfl, hnone⟩)) hk
  · intro h s hs
    rcases mem_insertNew.mp hs with hs | ⟨rfl, _⟩
    · exact h.1 s hs
    · exact h.2

theorem get_upsert :
    (t.upsert r f hf).get k = if key r = k then some (((t.get k).map f).getD r) else t.get k := by
  unfold upsert
  cases hi : t.insert? r with
  | some t' =>
    rw [Option.getD_some, get_insert? hi]
    by_cases hk : key r = k
    · have hnone := (insert?_eq_some hi).1
      rw [if_pos hk, if_pos hk, ← hk, hnone]
      rfl
    · rw [if_neg hk, if_neg hk]
  | none =>
    rw [Option.getD_none]
    by_cases hk : key r = k
    · rw [if_pos hk, hk, get_modify_self]
      obtain ⟨s, hs⟩ := Option.ne_none_iff_exists'.mp (insert?_eq_none_iff.mp hi)
      rw [hk] at hs
      simp [hs]
    · rw [if_neg hk, get_modify_ne (Ne.symm hk)]

theorem mem_upsert (h : s ∈ (t.upsert r f hf).rows) :
    s ∈ t.rows ∨ s = r ∨ ∃ u ∈ t.rows, key u = key r ∧ s = f u := by
  unfold upsert at h
  cases hi : t.insert? r with
  | some t' =>
    rw [hi, Option.getD_some, (insert?_eq_some hi).2, mem_append] at h
    rcases h with h | h
    · exact Or.inl h
    · exact Or.inr (Or.inl (mem_singleton.mp h))
  | none =>
    rw [hi, Option.getD_none, mem_modify_iff] at h
    rcases h with h | h
    · exact Or.inl h.1
    · exact Or.inr (Or.inr h)

variable {p : ρ → Bool}

omit [DecidableEq κ] in
theorem mem_remove : r ∈ (t.remove p).rows ↔ r ∈ t.rows ∧ p r = false := by
  simp [remove]

theorem get_remove : (t.remove p).get k = (t.get k).filter fun r => !p r := by
  ext r
  rw [get_eq_some_iff, mem_remove, Option.filter_eq_some_iff, get_eq_some_iff, and_right_comm]
  simp

theorem get_remove_of_kept (h : ∀ r, t.get k = some r → p r = false) :
    (t.remove p).get k = t.get k := by
  rw [get_remove]
  cases hget : t.get k with
  | none => rfl
  | some r => simp [Option.filter, h r hget]

end Table

end OciJanus.Verified.KeyedTable
