import Mathlib.Data.List.AList
import Mathlib.Data.List.Induction

/-!
# Rolling a list up by a key

`lookup_rollup`: the row of a key is what the items of that key make of it in turn.
-/

namespace OciJanus.Verified.Rollup

open List

variable {α β κ : Type} [DecidableEq κ] (key : α → κ) (add : α → Option β → β)

def rollup (items : List α) : AList fun _ : κ => β :=
  items.foldl (fun m x => m.insert (key x) (add x (m.lookup (key x)))) ∅

def values (m : AList fun _ : κ => β) : List β := m.entries.map (·.2)

def ofGroup (group : List α) : Option β := group.foldl (fun row x => some (add x row)) none

theorem ofGroup_concat (group : List α) (x : α) :
    ofGroup add (group ++ [x]) = some (add x (ofGroup add group)) := by
  simp [ofGroup]

theorem lookup_rollup (items : List α) (k : κ) :
    (rollup key add items).lookup k = ofGroup add (items.filter (key · = k)) := by
  induction items using List.reverseRecOn with
  | nil => rfl
  | append_singleton items x ih =>
    rw [rollup, foldl_concat, ← rollup, filter_append]
    by_cases hk : key x = k
    · subst hk
      rw [AList.lookup_insert, ih]
      simp [ofGroup_concat]
    · rw [AList.lookup_insert_ne (Ne.symm hk), ih]
      simp [hk]

theorem ofGroup_spec {P : List α → β → Prop}
    (hadd : ∀ group x, (∀ b ∈ ofGroup add group, P group b) →
      P (group ++ [x]) (add x (ofGroup add group))) {group : List α} {b : β}
    (hb : b ∈ ofGroup add group) : P group b := by
  induction group using List.reverseRecOn generalizing b with
  | nil => cases hb
  | append_singleton group x ih =>
    rw [ofGroup_concat, Option.mem_some_iff] at hb
    exact hb ▸ hadd group x fun b => ih

theorem ofGroup_isSome (group : List α) : (ofGroup add group).isSome ↔ group ≠ [] := by
  rcases eq_nil_or_concat' group with rfl | ⟨init, x, rfl⟩
  · simp [ofGroup]
  · simp [ofGroup_concat]

variable {key add} {items : List α} {k : κ}

theorem mem_keys_rollup : k ∈ (rollup key add items).keys ↔ ∃ x ∈ items, key x = k := by
  rw [← AList.mem_keys, ← AList.lookup_isSome, lookup_rollup, ofGroup_isSome, ne_eq,
    filter_eq_nil_iff]
  simp

section
variable {rowKey : β → κ}
  (hkey : ∀ x row, (∀ b ∈ row, rowKey b = key x) → rowKey (add x row) = key x)
include hkey

theorem rowKey_entry {e : Sigma fun _ : κ => β} (he : e ∈ (rollup key add items).entries) :
    rowKey e.2 = e.1 := by
  have hrow := AList.mem_lookup_iff.mpr he
  rw [lookup_rollup] at hrow
  refine ofGroup_spec add (P := fun group b => (∀ x ∈ group, key x = e.1) → rowKey b = e.1)
    (fun group x ih hall => ?_) hrow (by simp)
  have hx : key x = e.1 := hall x (by simp)
  exact (hkey x _ fun b hb => (ih b hb fun y hy => hall y (by simp [hy])).trans hx.symm).trans hx

theorem map_values :
    (values (rollup key add items)).map rowKey = (rollup key add items).keys := by
  rw [values, map_map]
  exact map_congr_left fun e he => rowKey_entry hkey he

theorem mem_values {b : β} : b ∈ values (rollup key add items) ↔
    b ∈ ofGroup add (items.filter (key · = rowKey b)) := by
  rw [← lookup_rollup, values, mem_map]
  constructor
  · rintro ⟨e, he, rfl⟩
    rw [rowKey_entry hkey he]
    exact AList.mem_lookup_iff.mpr he
  · exact fun h => ⟨⟨_, b⟩, AList.mem_lookup_iff.mp h, rfl⟩

end

end OciJanus.Verified.Rollup
