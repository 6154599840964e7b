import OciJanus.Verified.Sha256

/-!
# UTF-8 text as bytes

`decodeUtf8` is Go's `utf8.DecodeRune`: each byte that does not start a well-formed sequence
stands for one replacement character.
-/

namespace OciJanus.Verified.Utf8

open Verified.Sha256

def utf8 (cs : List Char) : Bytes := cs.flatMap String.utf8EncodeChar

def stringBytes (s : String) : Bytes := utf8 s.toList

theorem utf8_injective : Function.Injective utf8 := by
  intro cs ds h
  have hbytes : (String.ofList cs).toByteArray = (String.ofList ds).toByteArray := by
    simp only [String.toByteArray_ofList, List.utf8Encode]
    rw [show cs.flatMap String.utf8EncodeChar = ds.flatMap String.utf8EncodeChar from h]
  have hstr := String.toByteArray_inj.mp hbytes
  simpa using congrArg String.toList hstr

theorem stringBytes_injective : Function.Injective stringBytes := by
  intro s t h
  exact String.toList_inj.mp (utf8_injective h)

def runeError : Char := Char.ofNat 0xFFFD

def within (lo hi b : UInt8) : Bool := lo ≤ b && b ≤ hi

def tail (b : UInt8) : Nat := b.toNat % 64

def decodeRune : Bytes → Option (Char × Bytes)
  | [] => none
  | b0 :: rest =>
    if b0 < 0x80 then some (Char.ofNat b0.toNat, rest)
    else
      let bad := some (runeError, rest)
      match rest with
      | b1 :: rest1 =>
        if within 0xC2 0xDF b0 && within 0x80 0xBF b1 then
          some (Char.ofNat (b0.toNat % 32 * 64 + tail b1), rest1)
        else
          match rest1 with
          | b2 :: rest2 =>
            let second :=
              if b0 = 0xE0 then within 0xA0 0xBF b1
              else if b0 = 0xED then within 0x80 0x9F b1
              else within 0x80 0xBF b1
            if within 0xE0 0xEF b0 && second && within 0x80 0xBF b2 then
              some (Char.ofNat (b0.toNat % 16 * 4096 + tail b1 * 64 + tail b2), rest2)
            else
              match rest2 with
              | b3 :: rest3 =>
                let second :=
                  if b0 = 0xF0 then within 0x90 0xBF b1
                  else if b0 = 0xF4 then within 0x80 0x8F b1
                  else within 0x80 0xBF b1
                if within 0xF0 0xF4 b0 && second && within 0x80 0xBF b2 && within 0x80 0xBF b3 then
                  some (Char.ofNat (b0.toNat % 8 * 262144 + tail b1 * 4096
                      + tail b2 * 64 + tail b3), rest3)
                else bad
              | [] => bad
          | [] => bad
      | [] => bad

def decodeRunes : Nat → Bytes → List Char
  | 0, _ => []
  | fuel + 1, bs =>
    match decodeRune bs with
    | none => []
    | some (c, rest) => c :: decodeRunes fuel rest

def decodeUtf8 (bs : Bytes) : List Char := decodeRunes bs.length bs

-- `é`, then a lone continuation byte, then the four-byte `U+1F600`.
example : decodeUtf8 [0xC3, 0xA9, 0x80, 0xF0, 0x9F, 0x98, 0x80] =
    ['é', runeError, Char.ofNat 0x1F600] := by
  decide

end OciJanus.Verified.Utf8
