import Mathlib.Order.Basic

/-!
# A store whose keys expire

`SET key value EX ttl`, `GET` and `DEL`, at times the caller supplies. An entry is there until its
deadline and gone from it on.
-/

namespace OciJanus.Verified.ExpiringStore

variable {κ ν : Type*}

structure Entry (ν : Type*) where
  value : ν
  deadline : Int

structure Store (κ ν : Type*) where
  entry : κ → Option (Entry ν)

namespace Store

def empty : Store κ ν := ⟨fun _ => none⟩

def get (s : Store κ ν) (now : Int) (k : κ) : Option ν :=
  match s.entry k with
  | some e => if now < e.deadline then some e.value else none
  | none => none

variable {s : Store κ ν} {now : Int} {k k' : κ} {v : ν}

theorem get_eq_some_iff : s.get now k = some v ↔ ∃ d, s.entry k = some ⟨v, d⟩ ∧ now < d := by
  unfold get
  constructor
  · intro h
    cases he : s.entry k with
    | none =>
      rw [he] at h
      cases h
    | some e =>
      rw [he] at h
      by_cases hlt : now < e.deadline
      · simp only [hlt, if_true, Option.some.injEq] at h
        exact ⟨e.deadline, by rw [← h], hlt⟩
      · simp [hlt] at h
  · rintro ⟨d, he, hd⟩
    simp [he, hd]

theorem get_antitone {now' : Int} (h : now ≤ now')
    (hget : s.get now' k = some v) : s.get now k = some v := by
  obtain ⟨d, he, hd⟩ := get_eq_some_iff.mp hget
  exact get_eq_some_iff.mpr ⟨d, he, Int.lt_of_le_of_lt h hd⟩

variable [DecidableEq κ]

def set (s : Store κ ν) (now : Int) (k : κ) (v : ν) (ttl : Int) : Store κ ν :=
  ⟨Function.update s.entry k (some ⟨v, now + ttl⟩)⟩

def del (s : Store κ ν) (k : κ) : Store κ ν :=
  ⟨Function.update s.entry k none⟩

@[simp] theorem set_entry_self (s : Store κ ν) (now : Int) (k : κ) (v : ν) (ttl : Int) :
    (s.set now k v ttl).entry k = some ⟨v, now + ttl⟩ :=
  Function.update_self ..

@[simp] theorem set_entry_ne (s : Store κ ν) (now : Int) (v : ν) (ttl : Int)
    (h : k' ≠ k) : (s.set now k v ttl).entry k' = s.entry k' :=
  Function.update_of_ne h ..

@[simp] theorem del_entry_self (s : Store κ ν) (k : κ) : (s.del k).entry k = none :=
  Function.update_self ..

@[simp] theorem del_entry_ne (s : Store κ ν) (h : k' ≠ k) : (s.del k).entry k' = s.entry k' :=
  Function.update_of_ne h ..

theorem get_set_eq_some {now' : Int} {w : ν} {ttl : Int}
    (h : (s.set now k v ttl).get now' k' = some w) : (k' = k ∧ w = v) ∨ s.get now' k' = some w := by
  obtain ⟨d, he, hd⟩ := get_eq_some_iff.mp h
  by_cases hk : k' = k
  · rw [hk, set_entry_self, Option.some.injEq, Entry.mk.injEq] at he
    exact Or.inl ⟨hk, he.1.symm⟩
  · rw [set_entry_ne s now v ttl hk] at he
    exact Or.inr (get_eq_some_iff.mpr ⟨d, he, hd⟩)

theorem get_del_eq_some {w : ν} (h : (s.del k).get now k' = some w) : s.get now k' = some w := by
  obtain ⟨d, he, hd⟩ := get_eq_some_iff.mp h
  by_cases hk : k' = k
  · rw [hk, del_entry_self] at he
    cases he
  · rw [del_entry_ne s hk] at he
    exact get_eq_some_iff.mpr ⟨d, he, hd⟩

def readThrough (s : Store κ ν) (now : Int) (k : κ) (ttl : Int) (lookup : Option ν) :
    Option ν × Store κ ν :=
  match s.get now k with
  | some v => (some v, s)
  | none => (lookup, (lookup.map fun v => s.set now k v ttl).getD s)

theorem readThrough_fst (s : Store κ ν) (now : Int) (k : κ) (ttl : Int) (lookup : Option ν) :
    (s.readThrough now k ttl lookup).1 = (s.get now k).or lookup := by
  unfold readThrough
  cases s.get now k <;> rfl

theorem readThrough_empty (now : Int) (k : κ) (ttl : Int) (lookup : Option ν) :
    (readThrough empty now k ttl lookup).1 = lookup ∧
      ∀ later, (readThrough empty now k ttl lookup).2.get later k =
        if later < now + ttl then lookup else none := by
  refine ⟨rfl, fun later => ?_⟩
  cases lookup with
  | none => simp [readThrough, empty, get]
  | some v => simp [readThrough, empty, get, set]

end Store

end OciJanus.Verified.ExpiringStore
