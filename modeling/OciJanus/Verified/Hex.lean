import OciJanus.Verified.Json

/-!
# Hexadecimal text

Two digits for each byte, written in lower case and read in either case.
`hexDecode_hexEncode`: what is written is read back.
-/

namespace OciJanus.Verified.Hex

open Verified.Json (hexDigit hexValue hexValue_hexDigit)
open Verified.Sha256

def hexPair (b : UInt8) : List Char := [hexDigit (b.toNat / 16), hexDigit (b.toNat % 16)]

def hexEncode (bytes : Bytes) : String := String.ofList (bytes.flatMap hexPair)

def readPairs : List Char → Option Bytes
  | [] => some []
  | [_] => none
  | hi :: lo :: rest =>
    match hexValue hi, hexValue lo, readPairs rest with
    | some hi, some lo, some rest => some (UInt8.ofNat (hi * 16 + lo) :: rest)
    | _, _, _ => none

def hexDecode (s : String) : Option Bytes := readPairs s.toList

theorem readPairs_hexPair (b : UInt8) (rest : List Char) :
    readPairs (hexPair b ++ rest) = (readPairs rest).map (b :: ·) := by
  have hlt : b.toNat < 256 := b.toNat_lt
  have hhi := hexValue_hexDigit (b.toNat / 16) (by omega)
  have hlo := hexValue_hexDigit (b.toNat % 16) (by omega)
  have hbyte : b.toNat / 16 * 16 + b.toNat % 16 = b.toNat := by omega
  show readPairs (hexDigit (b.toNat / 16) :: hexDigit (b.toNat % 16) :: rest) = _
  rw [readPairs, hhi, hlo]
  cases readPairs rest with
  | none => rfl
  | some bytes =>
    dsimp only
    rw [hbyte, UInt8.ofNat_toNat]
    rfl

theorem hexDecode_hexEncode (bytes : Bytes) : hexDecode (hexEncode bytes) = some bytes := by
  unfold hexDecode hexEncode
  rw [String.toList_ofList]
  induction bytes with
  | nil => rfl
  | cons b bytes ih =>
    rw [List.flatMap_cons, readPairs_hexPair, ih]
    rfl

end OciJanus.Verified.Hex
