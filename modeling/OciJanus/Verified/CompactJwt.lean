import OciJanus.Verified.Json

/-!
# Reading a compact token without its key

Decoding follows Go's `base64.RawURLEncoding`: no padding, line breaks are skipped, and leftover
bits are ignored.
-/

namespace OciJanus.Verified.CompactJwt

open Verified.Sha256 Verified.Json

def sextet (b : UInt8) : Option Nat :=
  if 65 ≤ b ∧ b ≤ 90 then some (b.toNat - 65)
  else if 97 ≤ b ∧ b ≤ 122 then some (b.toNat - 71)
  else if 48 ≤ b ∧ b ≤ 57 then some (b.toNat + 4)
  else if b = 45 then some 62
  else if b = 95 then some 63
  else none

def quanta : List Nat → Option Bytes
  | [] => some []
  | [_] => none
  | [a, b] => some [UInt8.ofNat (a * 4 + b / 16)]
  | [a, b, c] => some [UInt8.ofNat (a * 4 + b / 16), UInt8.ofNat (b % 16 * 16 + c / 4)]
  | a :: b :: c :: d :: rest =>
    (quanta rest).map fun bs =>
      UInt8.ofNat (a * 4 + b / 16) :: UInt8.ofNat (b % 16 * 16 + c / 4)
        :: UInt8.ofNat (c % 4 * 64 + d) :: bs

def base64UrlDecode (raw : Bytes) : Option Bytes :=
  ((raw.filter fun b => b != 10 && b != 13).mapM sextet).bind quanta

def dot : UInt8 := 46

def segments (token : Bytes) : List Bytes := token.splitOn dot

def compact (header payload signature : Bytes) : Bytes :=
  [dot].intercalate [header, payload, signature]

def payloadString (name : String) (token : Bytes) : Option String :=
  match segments token with
  | [_, payload, _] => (base64UrlDecode payload).bind (stringField name)
  | _ => none

end OciJanus.Verified.CompactJwt
