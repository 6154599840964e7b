import Mathlib.Data.List.FinRange

/-!
# Leases

`Held`: the claims in hand are for different keys, and the lease of each key ends when its claim
says. It is kept as long as no claim is in hand after its end.
-/

namespace OciJanus.Verified.Leases

open List Function

variable {κ γ : Type*}

structure Held (key : γ → κ) (till : γ → Int) (lease : κ → Option Int) (work : List γ) :
    Prop where
  nodup : (work.map key).Nodup
  leased : ∀ c ∈ work, lease (key c) = some (till c)

namespace Held

variable {key : γ → κ} {till : γ → Int} {lease lease' : κ → Option Int} {work new : List γ}

theorem nil : Held key till lease [] where
  nodup := nodup_nil
  leased _ h := by cases h

theorem free (h : Held key till lease work) {now : Int} (hin : ∀ c ∈ work, now < till c) {k : κ}
    {t : Int} (hk : lease k = some t) (ht : t ≤ now) : k ∉ work.map key := by
  intro hmem
  obtain ⟨c, hc, rfl⟩ := mem_map.mp hmem
  have hleased := h.leased c hc
  rw [hk, Option.some.injEq] at hleased
  have hlate := hin c hc
  omega

theorem congr (h : Held key till lease work) (hsame : ∀ c ∈ work, lease' (key c) = lease (key c)) :
    Held key till lease' work where
  nodup := h.nodup
  leased c hc := by rw [hsame c hc]; exact h.leased c hc

theorem claim (h : Held key till lease work) (hnew : (new.map key).Nodup)
    (hfree : ∀ c ∈ new, key c ∉ work.map key) (hold : ∀ c ∈ work, lease' (key c) = lease (key c))
    (hleased : ∀ c ∈ new, lease' (key c) = some (till c)) : Held key till lease' (work ++ new) where
  nodup := by
    rw [map_append]
    refine h.nodup.append hnew ?_
    intro k hk hk'
    obtain ⟨c, hc, rfl⟩ := mem_map.mp hk'
    exact hfree c hc hk
  leased c hc := by
    rcases mem_append.mp hc with hc | hc
    · rw [hold c hc]
      exact h.leased c hc
    · exact hleased c hc

theorem sublist (h : Held key till lease work) (hsub : new.Sublist work)
    (hsame : ∀ c ∈ new, lease' (key c) = lease (key c)) : Held key till lease' new where
  nodup := h.nodup.sublist (hsub.map key)
  leased c hc := by
    rw [hsame c hc]
    exact h.leased c (hsub.subset hc)

theorem release (h : Held key till lease work) (j : Nat)
    (hsame : ∀ c ∈ work.eraseIdx j, lease' (key c) = lease (key c)) :
    Held key till lease' (work.eraseIdx j) :=
  h.sublist (eraseIdx_sublist work j) hsame

theorem perm (h : Held key till lease work) (hperm : work.Perm new) : Held key till lease new where
  nodup := (hperm.map key).nodup h.nodup
  leased c hc := h.leased c (hperm.mem_iff.mpr hc)

theorem key_ne_of_mem_eraseIdx (h : Held key till lease work) {j : Nat} {c c' : γ}
    (hj : work[j]? = some c) (hc' : c' ∈ work.eraseIdx j) : key c' ≠ key c := by
  intro heq
  obtain ⟨i, hne, hi⟩ := mem_eraseIdx_iff_getElem?.mp hc'
  have hi' : (work.map key)[i]? = some (key c') := by rw [List.getElem?_map, hi]; rfl
  have hj' : (work.map key)[j]? = some (key c) := by rw [List.getElem?_map, hj]; rfl
  have hlt : i < (work.map key).length := (List.getElem?_eq_some_iff.mp hi').1
  exact hne ((List.getElem?_inj hlt h.nodup).mp (by rw [hi', hj', heq]))

end Held

section Rows

variable {ρ : Type*} {pending : ρ → Prop} [DecidablePred pending] {endsAt : ρ → Int}
  {rows rows' : κ → Option ρ} {k : κ}

def leaseOf (pending : ρ → Prop) [DecidablePred pending] (endsAt : ρ → Int)
    (rows : κ → Option ρ) (k : κ) : Option Int :=
  match rows k with
  | some r => if pending r then some (endsAt r) else none
  | none => none

theorem leaseOf_eq_some {t : Int} :
    leaseOf pending endsAt rows k = some t ↔ ∃ r, rows k = some r ∧ pending r ∧ endsAt r = t := by
  unfold leaseOf
  cases rows k with
  | none | some => simp

theorem leaseOf_congr (h : rows' k = rows k) :
    leaseOf pending endsAt rows' k = leaseOf pending endsAt rows k := by
  unfold leaseOf
  rw [h]

theorem leaseOf_extend [DecidableEq κ] {ids : List κ} {till : Int} {extend : ρ → ρ}
    (hrows : ∀ k, rows' k = if k ∈ ids then (rows k).map extend else rows k)
    (hpending : ∀ r, pending r → pending (extend r)) (hends : ∀ r, endsAt (extend r) = till)
    (hids : ∀ k ∈ ids, ∃ t, leaseOf pending endsAt rows k = some t) (k : κ) :
    leaseOf pending endsAt rows' k =
      if k ∈ ids then some till else leaseOf pending endsAt rows k := by
  by_cases hk : k ∈ ids
  · obtain ⟨t, ht⟩ := hids k hk
    obtain ⟨r, hr, hp, _⟩ := leaseOf_eq_some.mp ht
    rw [if_pos hk]
    refine leaseOf_eq_some.mpr ⟨extend r, ?_, hpending r hp, hends r⟩
    rw [hrows k, if_pos hk, hr]
    rfl
  · rw [if_neg hk]
    refine leaseOf_congr ?_
    rw [hrows k, if_neg hk]

end Rows

section Holders

variable {n : Nat} {hands : Fin n → List γ} {i : Fin n}

def inHand (hands : Fin n → List γ) : List γ := (List.finRange n).flatMap hands

variable {c : γ}

theorem mem_inHand : c ∈ inHand hands ↔ ∃ i, c ∈ hands i := by
  simp [inHand]

def others (hands : Fin n → List γ) (i : Fin n) : List γ :=
  ((List.finRange n).erase i).flatMap hands

theorem mem_others {j : Fin n} (hj : j ≠ i) (hc : c ∈ hands j) : c ∈ others hands i :=
  mem_flatMap.mpr ⟨j, (mem_erase_of_ne hj).mpr (mem_finRange j), hc⟩

theorem inHand_perm (hands : Fin n → List γ) (i : Fin n) :
    (inHand hands).Perm (hands i ++ others hands i) :=
  (perm_cons_erase (mem_finRange i)).flatMap_right hands

theorem inHand_update_perm (hands : Fin n → List γ) (i : Fin n) (hand : List γ) :
    (inHand (update hands i hand)).Perm (hand ++ others hands i) := by
  have hothers : others (update hands i hand) i = others hands i := by
    refine flatMap_congr fun j hj => ?_
    have hne : j ≠ i := ((nodup_finRange n).mem_erase_iff.mp hj).1
    exact update_of_ne hne hand hands
  have hperm := inHand_perm (update hands i hand) i
  rwa [update_self, hothers] at hperm

theorem mem_of_mem_drop {hand : List γ} (hsub : hand.Sublist (hands i))
    (hc : c ∈ inHand (update hands i hand)) : c ∈ inHand hands := by
  have hc' := (inHand_update_perm hands i hand).mem_iff.mp hc
  exact (inHand_perm hands i).mem_iff.mpr ((hsub.append_right _).subset hc')

variable {key : γ → κ} {till : γ → Int} {lease lease' : κ → Option Int} {new : List γ}

namespace Held

theorem apart (h : Held key till lease (inHand hands)) {j : Fin n} {c c' : γ} (hc : c ∈ hands i)
    (hc' : c' ∈ hands j) (heq : key c = key c') : i = j := by
  by_contra hne
  have hnodup := (h.perm (inHand_perm hands i)).nodup
  rw [map_append] at hnodup
  refine (disjoint_of_nodup_append hnodup) (mem_map_of_mem hc) ?_
  rw [heq]
  exact mem_map_of_mem (mem_others (Ne.symm hne) hc')

theorem take (h : Held key till lease (inHand hands)) (hempty : hands i = [])
    (hnew : (new.map key).Nodup) (hfree : ∀ c ∈ new, key c ∉ (inHand hands).map key)
    (hold : ∀ c ∈ inHand hands, lease' (key c) = lease (key c))
    (hleased : ∀ c ∈ new, lease' (key c) = some (till c)) :
    Held key till lease' (inHand (update hands i new)) := by
  have hrest : (inHand hands).Perm (others hands i) := by
    have hperm := inHand_perm hands i
    rwa [hempty] at hperm
  have hhand : (new ++ others hands i).Perm (inHand (update hands i new)) :=
    (inHand_update_perm hands i new).symm
  refine (h.claim hnew hfree hold hleased).perm ?_
  exact perm_append_comm.trans ((hrest.append_left new).trans hhand)

/-- A holder with empty hands takes the claims of some keys; a lost reply leaves it none. -/
theorem takeAll {make : κ → γ} {ids : List κ} {t : Int} (reply : Bool)
    (h : Held key till lease (inHand hands)) (hempty : hands i = [])
    (hkey : ∀ k, key (make k) = k) (htill : ∀ k, till (make k) = t) (hnodup : ids.Nodup)
    (hfree : ∀ k ∈ ids, k ∉ (inHand hands).map key) (hold : ∀ k, k ∉ ids → lease' k = lease k)
    (hleased : ∀ k ∈ ids, lease' k = some t) :
    Held key till lease' (inHand (update hands i (if reply then ids.map make else []))) := by
  have hold' : ∀ c ∈ inHand hands, lease' (key c) = lease (key c) := fun c hc =>
    hold _ fun hk => hfree (key c) hk (mem_map_of_mem hc)
  cases reply with
  | false => exact h.take hempty nodup_nil nofun hold' nofun
  | true =>
    refine h.take hempty ?_ ?_ hold' ?_
    · show ((ids.map make).map key).Nodup
      rw [map_map, show key ∘ make = id from funext hkey, map_id]
      exact hnodup
    · intro c hc
      obtain ⟨k, hk, rfl⟩ := mem_map.mp hc
      rw [hkey]
      exact hfree k hk
    · intro c hc
      obtain ⟨k, hk, rfl⟩ := mem_map.mp hc
      rw [hkey, htill]
      exact hleased k hk

theorem drop (h : Held key till lease (inHand hands)) (hsub : new.Sublist (hands i))
    (hsame : ∀ c ∈ inHand (update hands i new), lease' (key c) = lease (key c)) :
    Held key till lease' (inHand (update hands i new)) := by
  have hperm := inHand_update_perm hands i new
  refine Held.perm ?_ hperm.symm
  refine (h.perm (inHand_perm hands i)).sublist (hsub.append_right _) fun c hc => ?_
  exact hsame c (hperm.mem_iff.mpr hc)

theorem key_ne_of_tail (h : Held key till lease (inHand hands)) {d c : γ} {rest : List γ}
    (hhand : hands i = d :: rest) (hc : c ∈ inHand (update hands i rest)) :
    key c ≠ key d := by
  have hnodup := (h.perm (inHand_perm hands i)).nodup
  rw [hhand, cons_append, map_cons, nodup_cons] at hnodup
  have hmem := (inHand_update_perm hands i rest).mem_iff.mp hc
  intro heq
  exact hnodup.1 (heq ▸ mem_map_of_mem hmem)

end Held

end Holders

end OciJanus.Verified.Leases
