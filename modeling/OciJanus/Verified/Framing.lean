import OciJanus.Verified.Sha256

/-!
# Length-prefixed framing

The four big-endian bytes of the length, modulo `2 ^ 32`, and the bytes.
-/

namespace OciJanus.Verified.Framing

open Verified.Sha256 List

def Framed (b : Bytes) : Prop := b.length < 4294967296

instance (b : Bytes) : Decidable (Framed b) :=
  inferInstanceAs (Decidable (b.length < 4294967296))

theorem bigEndian_four (x : Nat) :
    bigEndian 4 x = [UInt8.ofNat (x / 16777216), UInt8.ofNat (x / 65536),
        UInt8.ofNat (x / 256), UInt8.ofNat x] := by
  simp [bigEndian, range_succ]

theorem bigEndian_four_inj {x y : Nat} (hx : x < 4294967296) (hy : y < 4294967296)
    (h : bigEndian 4 x = bigEndian 4 y) : x = y := by
  simp only [bigEndian_four, List.cons.injEq, and_true, ← UInt8.toNat_inj, UInt8.toNat_ofNat'] at h
  omega

def frame (b : Bytes) : Bytes := bigEndian 4 (b.length % 4294967296) ++ b

theorem frame_append_inj {b b' r r' : Bytes} (hb : Framed b) (hb' : Framed b')
    (h : frame b ++ r = frame b' ++ r') : b = b' ∧ r = r' := by
  unfold Framed at hb hb'
  simp only [frame, append_assoc] at h
  obtain ⟨hhead, htail⟩ := append_inj h (by simp)
  have hlen : b.length = b'.length := by
    have := bigEndian_four_inj (Nat.mod_lt _ (by decide)) (Nat.mod_lt _ (by decide)) hhead
    rwa [Nat.mod_eq_of_lt hb, Nat.mod_eq_of_lt hb'] at this
  exact append_inj htail hlen

theorem frame_ne_nil (b : Bytes) : frame b ≠ [] := by
  intro h
  have hlen := congrArg List.length h
  simp [frame] at hlen

def frames (fs : List Bytes) : Bytes := fs.flatMap frame

theorem frames_inj : ∀ {fs gs : List Bytes}, (∀ b ∈ fs, Framed b) → (∀ b ∈ gs, Framed b) →
    frames fs = frames gs → fs = gs := by
  intro fs
  induction fs with
  | nil =>
    intro gs _ _ h
    cases gs with
    | nil => rfl
    | cons g gs =>
      have hg : frame g = [] := (append_eq_nil_iff.mp h.symm).1
      exact absurd hg (frame_ne_nil g)
  | cons f fs ih =>
    intro gs hfs hgs h
    cases gs with
    | nil =>
      have hf : frame f = [] := (append_eq_nil_iff.mp h).1
      exact absurd hf (frame_ne_nil f)
    | cons g gs =>
      obtain ⟨hfg, hrest⟩ := frame_append_inj (hfs f (by simp)) (hgs g (by simp)) h
      rw [hfg, ih (fun b hb => hfs b (by simp [hb])) (fun b hb => hgs b (by simp [hb])) hrest]

end OciJanus.Verified.Framing
