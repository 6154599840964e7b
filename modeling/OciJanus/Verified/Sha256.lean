import Mathlib.Data.List.Basic
import Mathlib.Data.Set.Function

/-!
# SHA-256 over byte lists

FIPS 180-4, laid out for evaluation in the kernel. What is assumed of it is `NoCollision`: no two
of the messages that were actually hashed share a digest.
-/

namespace OciJanus.Verified.Sha256

abbrev Bytes := List UInt8

def bigEndian (n x : Nat) : Bytes :=
  (List.range n).reverse.map fun i => UInt8.ofNat (x / Nat.pow 256 i)

@[simp] theorem bigEndian_length (n x : Nat) : (bigEndian n x).length = n := by
  simp [bigEndian]

abbrev Word := Nat

def wrap (x : Nat) : Word := Nat.mod x 4294967296

def rotateRight (x : Word) (n : Nat) : Word :=
  Nat.lor (Nat.shiftRight x n) (wrap (Nat.shiftLeft x (Nat.sub 32 n)))

def xor3 (x y z : Word) : Word := Nat.xor (Nat.xor x y) z

def bigSigma0 (x : Word) : Word :=
  xor3 (rotateRight x 2) (rotateRight x 13) (rotateRight x 22)

def bigSigma1 (x : Word) : Word :=
  xor3 (rotateRight x 6) (rotateRight x 11) (rotateRight x 25)

def smallSigma0 (x : Word) : Word :=
  xor3 (rotateRight x 7) (rotateRight x 18) (Nat.shiftRight x 3)

def smallSigma1 (x : Word) : Word :=
  xor3 (rotateRight x 17) (rotateRight x 19) (Nat.shiftRight x 10)

def ch (x y z : Word) : Word :=
  Nat.xor (Nat.land x y) (Nat.land (Nat.sub 4294967295 x) z)

def maj (x y z : Word) : Word :=
  xor3 (Nat.land x y) (Nat.land x z) (Nat.land y z)

def roundConstants : List Word :=
  [ 0x428a2f98, 0x71374491, 0xb5c0fbcf, 0xe9b5dba5
  , 0x3956c25b, 0x59f111f1, 0x923f82a4, 0xab1c5ed5
  , 0xd807aa98, 0x12835b01, 0x243185be, 0x550c7dc3
  , 0x72be5d74, 0x80deb1fe, 0x9bdc06a7, 0xc19bf174
  , 0xe49b69c1, 0xefbe4786, 0x0fc19dc6, 0x240ca1cc
  , 0x2de92c6f, 0x4a7484aa, 0x5cb0a9dc, 0x76f988da
  , 0x983e5152, 0xa831c66d, 0xb00327c8, 0xbf597fc7
  , 0xc6e00bf3, 0xd5a79147, 0x06ca6351, 0x14292967
  , 0x27b70a85, 0x2e1b2138, 0x4d2c6dfc, 0x53380d13
  , 0x650a7354, 0x766a0abb, 0x81c2c92e, 0x92722c85
  , 0xa2bfe8a1, 0xa81a664b, 0xc24b8b70, 0xc76c51a3
  , 0xd192e819, 0xd6990624, 0xf40e3585, 0x106aa070
  , 0x19a4c116, 0x1e376c08, 0x2748774c, 0x34b0bcb5
  , 0x391c0cb3, 0x4ed8aa4a, 0x5b9cca4f, 0x682e6ff3
  , 0x748f82ee, 0x78a5636f, 0x84c87814, 0x8cc70208
  , 0x90befffa, 0xa4506ceb, 0xbef9a3f7, 0xc67178f2 ]

structure State where
  (a b c d e f g h : Word)

def State.initial : State :=
  ⟨0x6a09e667, 0xbb67ae85, 0x3c6ef372, 0xa54ff53a, 0x510e527f, 0x9b05688c, 0x1f83d9ab, 0x5be0cd19⟩

def pad (m : Bytes) : Bytes :=
  m ++ [0x80] ++ List.replicate ((119 - m.length % 64) % 64) 0 ++ bigEndian 8 (8 * m.length)

def value (m : Bytes) : Nat :=
  m.foldl (fun acc b => Nat.add (Nat.mul acc 256) b.toNat) 0

def windowWord (w : Nat) (i : Nat) : Word :=
  wrap (Nat.shiftRight w (Nat.mul 32 i))

def slide (w : Nat) : Nat :=
  Nat.add (Nat.shiftLeft (Nat.mod w (Nat.pow 2 480)) 32) (wrap (Nat.add
      (Nat.add (smallSigma1 (windowWord w 1)) (windowWord w 6))
      (Nat.add (smallSigma0 (windowWord w 14)) (windowWord w 15))))

def round (s : State) (k w : Word) : State :=
  let t1 := Nat.add (Nat.add (Nat.add s.h (bigSigma1 s.e)) (ch s.e s.f s.g)) (Nat.add k w)
  let t2 := Nat.add (bigSigma0 s.a) (maj s.a s.b s.c)
  ⟨wrap (Nat.add t1 t2), s.a, s.b, s.c, wrap (Nat.add s.d t1), s.e, s.f, s.g⟩

def rounds : List Word → Nat → State → State
  | [], _, s => s
  | k :: ks, w, s => rounds ks (slide w) (round s k (windowWord w 15))

def compress (s : State) (block : Nat) : State :=
  let r := rounds roundConstants block s
  ⟨wrap (Nat.add s.a r.a), wrap (Nat.add s.b r.b), wrap (Nat.add s.c r.c),
    wrap (Nat.add s.d r.d), wrap (Nat.add s.e r.e), wrap (Nat.add s.f r.f),
    wrap (Nat.add s.g r.g), wrap (Nat.add s.h r.h)⟩

def absorb : Nat → Bytes → State → State
  | 0, _, s => s
  | n + 1, m, s => absorb n (m.drop 64) (compress s (value (m.take 64)))

def State.digest (s : State) : Bytes :=
  bigEndian 4 s.a ++ bigEndian 4 s.b ++ bigEndian 4 s.c ++ bigEndian 4 s.d
    ++ bigEndian 4 s.e ++ bigEndian 4 s.f
    ++ bigEndian 4 s.g ++ bigEndian 4 s.h

@[irreducible] def sha256 (m : Bytes) : Bytes :=
  (absorb ((pad m).length / 64) (pad m) State.initial).digest

theorem State.digest_length (s : State) : s.digest.length = 32 := by
  simp [State.digest]

@[simp] theorem sha256_length (m : Bytes) : (sha256 m).length = 32 := by
  unfold sha256
  exact State.digest_length _

-- The three-byte example message of the standard.
example : sha256 [0x61, 0x62, 0x63] = [ 0xba, 0x78, 0x16, 0xbf, 0x8f, 0x01, 0xcf, 0xea
    , 0x41, 0x41, 0x40, 0xde, 0x5d, 0xae, 0x22, 0x23
    , 0xb0, 0x03, 0x61, 0xa3, 0x96, 0x17, 0x7a, 0x9c
    , 0xb4, 0x10, 0xff, 0x61, 0xf2, 0x00, 0x15, 0xad ] := by
  decide +kernel

def NoCollision (msgs : Set Bytes) : Prop := Set.InjOn sha256 msgs

theorem NoCollision.mono {s t : Set Bytes} (h : NoCollision t) (hst : s ⊆ t) : NoCollision s :=
  Set.InjOn.mono hst h

theorem NoCollision.eq {s : Set Bytes} (h : NoCollision s) {m m' : Bytes}
    (hm : m ∈ s) (hm' : m' ∈ s) (heq : sha256 m = sha256 m') : m = m' :=
  h hm hm' heq

end OciJanus.Verified.Sha256
