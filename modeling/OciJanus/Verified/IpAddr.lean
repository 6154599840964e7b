import Mathlib.Data.BitVec

/-!
# Internet addresses

A block is asked about the IPv4 address that a mapped IPv6 address stands for.
-/

namespace OciJanus.Verified.IpAddr

inductive Addr where
  | v4 (a : BitVec 32)
  | v6 (a : BitVec 128)
  deriving DecidableEq

def octets (a b c d : Nat) : BitVec 32 := BitVec.ofNat 32 (((a * 256 + b) * 256 + c) * 256 + d)

namespace Addr

def unmap : Addr → Addr
  | .v4 a => .v4 a
  | .v6 a => if a >>> 32 = 65535#128 then .v4 (a.setWidth 32) else .v6 a

def isLoopback (x : Addr) : Bool :=
  match x.unmap with
  | .v4 a => a >>> 24 == 127#32
  | .v6 a => a == 1#128

def isUnspecified (x : Addr) : Bool :=
  match x.unmap with
  | .v4 a => a == 0#32
  | .v6 a => a == 0#128

def isPrivateUse (x : Addr) : Bool :=
  match x.unmap with
  | .v4 a => a >>> 24 == 10#32 || a >>> 20 == 2753#32 || a >>> 16 == 49320#32
  | .v6 _ => false

def isUniqueLocal (x : Addr) : Bool :=
  match x.unmap with
  | .v4 _ => false
  | .v6 a => a >>> 121 == 126#128

def isLinkLocal (x : Addr) : Bool :=
  match x.unmap with
  | .v4 a => a >>> 16 == 43518#32
  | .v6 a => a >>> 118 == 1018#128

def isShared (x : Addr) : Bool :=
  match x.unmap with
  | .v4 a => a >>> 22 == 401#32
  | .v6 _ => false

def isInternal (x : Addr) : Bool :=
  x.isLoopback || x.isUnspecified || x.isPrivateUse || x.isUniqueLocal || x.isLinkLocal ||
    x.isShared

theorem unmap_unmap (x : Addr) : x.unmap.unmap = x.unmap := by
  cases x with
  | v4 a => rfl
  | v6 a =>
    unfold unmap
    dsimp only
    by_cases hmapped : a >>> 32 = 65535#128
    · rw [if_pos hmapped]
    · rw [if_neg hmapped]
      dsimp only
      rw [if_neg hmapped]

theorem isInternal_unmap (x : Addr) : x.unmap.isInternal = x.isInternal := by
  simp only [isInternal, isLoopback, isUnspecified, isPrivateUse, isUniqueLocal, isLinkLocal,
    isShared, unmap_unmap]

end Addr

def mask (w bits : Nat) : BitVec w := BitVec.allOnes w <<< (w - bits)

inductive Cidr where
  | v4 (net : BitVec 32) (bits : Nat)
  | v6 (net : BitVec 128) (bits : Nat)

def Cidr.contains (n : Cidr) (x : Addr) : Bool :=
  match n, x.unmap with
  | .v4 net bits, .v4 a => net &&& mask 32 bits == a &&& mask 32 bits
  | .v6 net bits, .v6 a => net &&& mask 128 bits == a &&& mask 128 bits
  | _, _ => false

variable {bits : Nat} {x : Addr}

theorem getLsbD_and_mask {w : Nat} (x : BitVec w) (i : Nat) :
    (x &&& mask w bits).getLsbD i = (x.getLsbD i && decide (w - bits ≤ i)) := by
  rw [BitVec.getLsbD_and]
  by_cases hw : i < w
  · congr 1
    rw [mask, BitVec.getLsbD_shiftLeft, BitVec.getLsbD_allOnes]
    by_cases hi : i < w - bits
    · simp [hi, Nat.not_le_of_lt hi]
    · have hlt : i - (w - bits) < w := by omega
      simp [hw, hi, hlt, Nat.le_of_not_lt hi]
  · rw [BitVec.getLsbD_of_ge x i (Nat.le_of_not_lt hw), Bool.false_and, Bool.false_and]

theorem and_mask_eq_iff {w : Nat} (x y : BitVec w) :
    x &&& mask w bits = y &&& mask w bits ↔ x >>> (w - bits) = y >>> (w - bits) := by
  constructor
  · intro h
    refine BitVec.eq_of_getLsbD_eq fun i _ => ?_
    have hbit := congrArg (fun z : BitVec w => z.getLsbD (w - bits + i)) h
    rw [BitVec.getLsbD_ushiftRight, BitVec.getLsbD_ushiftRight]
    simpa only [getLsbD_and_mask, Nat.le_add_right, decide_true, Bool.and_true] using hbit
  · intro h
    refine BitVec.eq_of_getLsbD_eq fun i _ => ?_
    rw [getLsbD_and_mask, getLsbD_and_mask]
    by_cases hi : w - bits ≤ i
    · have hbit := congrArg (fun z : BitVec w => z.getLsbD (i - (w - bits))) h
      simp only [BitVec.getLsbD_ushiftRight, Nat.add_sub_cancel' hi] at hbit
      rw [hbit]
    · simp [hi]

theorem contains_v4 {net a : BitVec 32} (hx : x.unmap = .v4 a) :
    (Cidr.v4 net bits).contains x = (a >>> (32 - bits) == net >>> (32 - bits)) := by
  unfold Cidr.contains
  rw [hx, Bool.eq_iff_iff, beq_iff_eq, beq_iff_eq, and_mask_eq_iff]
  exact eq_comm

theorem contains_v6 {net a : BitVec 128} (hx : x.unmap = .v6 a) :
    (Cidr.v6 net bits).contains x = (a >>> (128 - bits) == net >>> (128 - bits)) := by
  unfold Cidr.contains
  rw [hx, Bool.eq_iff_iff, beq_iff_eq, beq_iff_eq, and_mask_eq_iff]
  exact eq_comm

theorem v4_contains_v6 {net : BitVec 32} {a : BitVec 128}
    (hx : x.unmap = .v6 a) : (Cidr.v4 net bits).contains x = false := by
  unfold Cidr.contains
  rw [hx]

theorem v6_contains_v4 {net : BitVec 128} {a : BitVec 32}
    (hx : x.unmap = .v4 a) : (Cidr.v6 net bits).contains x = false := by
  unfold Cidr.contains
  rw [hx]

end OciJanus.Verified.IpAddr
