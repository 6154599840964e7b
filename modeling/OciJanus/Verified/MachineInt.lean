import Mathlib.Algebra.Order.BigOperators.Group.List

/-!
# Signed 64-bit integers and their sums

`accumulate_eq`: a loop of additions gives the residue of the exact sum.
-/

namespace OciJanus.Verified.MachineInt

def Fits (v : Int) : Prop := -9223372036854775808 ≤ v ∧ v ≤ 9223372036854775807

instance : DecidablePred Fits := fun v => by
  unfold Fits
  infer_instance

def int64 (v : Int) : Int := (v + 9223372036854775808) % 18446744073709551616 - 9223372036854775808

theorem int64_eq_self {v : Int} (h : Fits v) : int64 v = v := by
  unfold Fits at h
  unfold int64
  omega

theorem fits_int64 (v : Int) : Fits (int64 v) := by
  unfold Fits int64
  omega

theorem int64_add (a b : Int) : int64 (int64 a + b) = int64 (a + b) := by
  unfold int64
  omega

def exactSum (xs : List Int) : Int := xs.foldl (· + ·) 0

def accumulate (total : Int) (xs : List Int) : Int := xs.foldl (fun t x => int64 (t + x)) total

@[simp] theorem exactSum_nil : exactSum [] = 0 := rfl

theorem exactSum_cons (x : Int) (xs : List Int) : exactSum (x :: xs) = x + exactSum xs := by
  show List.foldl (· + ·) (0 + x) xs = _
  rw [Int.add_comm 0 x]
  exact List.foldl_assoc

theorem exactSum_perm {xs ys : List Int} (h : xs.Perm ys) : exactSum xs = exactSum ys :=
  h.foldl_eq 0

theorem exactSum_nonneg {xs : List Int} (h : ∀ x ∈ xs, 0 ≤ x) : 0 ≤ exactSum xs := by
  induction xs with
  | nil => exact Int.le_refl 0
  | cons x xs ih =>
    rw [exactSum_cons]
    exact Int.add_nonneg (h x List.mem_cons_self) (ih fun y hy => h y (List.mem_cons_of_mem x hy))

theorem accumulate_eq (v : Int) (xs : List Int) :
    accumulate (int64 v) xs = int64 (v + exactSum xs) := by
  induction xs generalizing v with
  | nil => rw [exactSum_nil, Int.add_zero]; rfl
  | cons x xs ih =>
    show accumulate (int64 (int64 v + x)) xs = _
    rw [int64_add, ih, exactSum_cons, Int.add_assoc]

end OciJanus.Verified.MachineInt
