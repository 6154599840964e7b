import OciJanus.Verified.Json

/-!
# Fields of a decoded document

Members are assigned in the order of the text, without regard to case; a value of another type is
an error.
-/

namespace OciJanus.Verified.Json

open Verified.Sha256 Verified.Utf8

def membersOf (raw : Bytes) : List (String × Value) :=
  match unmarshal raw with
  | some (.obj _) =>
    let cs := (skipSpace (decodeUtf8 raw)).drop 1
    orderedMembers (2 * cs.length + 2) (maxNestingDepth - 1) cs
  | _ => []

def lastField {α : Type*} (get : Value → Option α) (name : String) (zero : α)
    (ms : List (String × Value)) : α :=
  ms.foldl (fun current m =>
    if foldName m.1 = foldName name then (get m.2).getD current else current) zero

def Value.str? : Value → Option String
  | .str s => some s
  | _ => none

def Value.bool? : Value → Option Bool
  | .bool b => some b
  | _ => none

def parseDigits (cs : List Char) : Option Nat :=
  if cs.isEmpty || !cs.all isDigit then none
  else some (cs.foldl (fun n c => 10 * n + (c.toNat - '0'.toNat)) 0)

def Value.int? (bound : Int) : Value → Option Int
  | .number n =>
    let parsed : Option Int :=
      match n.text with
      | '-' :: ds => (parseDigits ds).map fun k => -(k : Int)
      | ds => (parseDigits ds).map fun k => (k : Int)
    parsed.filter fun k => -bound ≤ k ∧ k < bound
  | _ => none

inductive FieldType where
  | string
  | int (bound : Int)

def FieldType.accepts (t : FieldType) (v : Value) : Bool :=
  match t, v with
  | _, .null => true
  | .string, v => v.str?.isSome
  | .int bound, v => (v.int? bound).isSome

def unmarshals (fields : List (String × FieldType)) (raw : Bytes) : Bool :=
  match unmarshal raw with
  | some .null => true
  | some (.obj _) =>
    (membersOf raw).all fun m =>
      fields.all fun f => foldName m.1 ≠ foldName f.1 || f.2.accepts m.2
  | _ => false

theorem isNumberChar_of_isDigit {c : Char} (h : c.isDigit = true) : isNumberChar c = true := by
  have h' : isDigit c = true := by
    simpa [isDigit, Char.isDigit, Char.le_def] using h
  simp [isNumberChar, h']

def Number.ofNat (n : Nat) : Number where
  text := Nat.toDigits 10 n
  ne_nil := Nat.toDigits_ne_nil
  chars c hc := isNumberChar_of_isDigit (Nat.isDigit_of_mem_toDigits (by decide) (by decide) hc)

def Number.ofInt : Int → Number
  | .ofNat n => .ofNat n
  | .negSucc n =>
    { text := '-' :: (Number.ofNat (n + 1)).text
      ne_nil := List.cons_ne_nil _ _
      chars := fun c hc => by
        rcases List.mem_cons.mp hc with rfl | hc
        · decide
        · exact (Number.ofNat (n + 1)).chars c hc }

def Members.get (key : String) : Members → Option Value
  | .nil => none
  | .cons k v ms => if k = key then some v else ms.get key

def Value.member (key : String) : Value → Option Value
  | .obj ms => ms.get key
  | _ => none

def Value.scalarText : Value → Option String
  | .str s => some s
  | .bool b => some (if b then "true" else "false")
  | .number n => some (String.ofList n.text)
  | _ => none

def Value.memberText (key : String) (v : Value) : Option String :=
  (v.member key).bind Value.scalarText

end OciJanus.Verified.Json
