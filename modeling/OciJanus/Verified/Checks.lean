import Mathlib.Logic.Basic

/-!
# Checks one after another

A handler answers with the error of the first check that fails; "it comes through" is the
conjunction of its checks.
-/

namespace OciJanus.Verified.Checks

variable {ε φ α β : Type}

def require (b : Bool) (e : ε) : Except ε Unit := if b then .ok () else .error e

def found (o : Option α) (e : ε) : Except ε α :=
  match o with
  | some a => .ok a
  | none => .error e

variable {x : Except ε α} {e : ε}

theorem bind_eq_ok {f : α → Except ε β} {b : β} (h : (x >>= f) = .ok b) :
    ∃ a, x = .ok a ∧ f a = .ok b := by
  cases x with
  | error e => cases h
  | ok a => exact ⟨a, rfl, h⟩

theorem require_eq_ok_iff {b : Bool} {u : Unit} : require b e = .ok u ↔ b = true := by
  cases b <;> simp [require]

theorem require_bind_eq_ok_iff {b : Bool} {f : Unit → Except ε β} {y : β} :
    (require b e >>= f) = .ok y ↔ b = true ∧ f () = .ok y := by
  cases b with
  | false =>
    constructor
    · intro h
      cases h
    · intro h
      cases h.1
  | true =>
    show f () = .ok y ↔ _
    simp

theorem found_bind_eq_ok_iff {o : Option α} {f : α → Except ε β} {y : β} :
    (found o e >>= f) = .ok y ↔ ∃ a, o = some a ∧ f a = .ok y := by
  cases o with
  | none =>
    constructor
    · intro h
      cases h
    · rintro ⟨a, h, _⟩
      cases h
  | some a =>
    show f a = .ok y ↔ _
    simp

theorem mapError_eq_ok_iff {f : ε → φ} {a : α} : x.mapError f = .ok a ↔ x = .ok a := by
  cases x with
  | error e => exact ⟨nofun, nofun⟩
  | ok b => exact ⟨fun h => by cases h; rfl, fun h => by cases h; rfl⟩

theorem mapError_bind_eq_ok_iff {f : ε → φ} {g : α → Except φ β} {b : β} :
    (x.mapError f >>= g) = .ok b ↔ ∃ a, x = .ok a ∧ g a = .ok b := by
  cases x with
  | error e => exact ⟨nofun, nofun⟩
  | ok a => exact ⟨fun h => ⟨a, rfl, h⟩, fun ⟨_, h, hg⟩ => by cases h; exact hg⟩

theorem pure_eq_ok_iff {a b : α} : (pure a : Except ε α) = .ok b ↔ a = b := by
  constructor
  · intro h
    cases h
    rfl
  · intro h
    rw [h]
    rfl

end OciJanus.Verified.Checks
