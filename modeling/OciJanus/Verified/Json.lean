import OciJanus.Verified.Utf8

/-!
# JSON values, Go's decoder and the canonical writer

A later duplicate key replaces an earlier one, lone surrogate escapes become `U+FFFD`, nesting is
bounded by 10000.
-/

namespace OciJanus.Verified.Json

open Verified.Sha256 Verified.Utf8 List

def isDigit (c : Char) : Bool := '0' ≤ c && c ≤ '9'

def isNumberChar (c : Char) : Bool :=
  isDigit c || c == '-' || c == '+' || c == '.' || c == 'e' || c == 'E'

structure Number where
  text : List Char
  ne_nil : text ≠ []
  chars : ∀ c ∈ text, isNumberChar c = true

mutual

inductive Value where
  | null
  | bool (b : Bool)
  | number (n : Number)
  | str (s : String)
  | arr (xs : Elems)
  | obj (ms : Members)

inductive Elems where
  | nil
  | cons (x : Value) (xs : Elems)

inductive Members where
  | nil
  | cons (k : String) (v : Value) (ms : Members)

end

def Members.insert (k : String) (v : Value) : Members → Members
  | .nil => .cons k v .nil
  | .cons k' v' ms =>
    if k < k' then .cons k v (.cons k' v' ms)
    else if k = k' then .cons k' v' ms
    else .cons k' v' (Members.insert k v ms)

def isSpace (c : Char) : Bool := c == ' ' || c == '\t' || c == '\r' || c == '\n'

def skipSpace (cs : List Char) : List Char := cs.dropWhile isSpace

def scanInt : List Char → Option (List Char × List Char)
  | [] => none
  | c :: r =>
    if c = '0' then some (['0'], r)
    else if isDigit c then some (c :: r.takeWhile isDigit, r.dropWhile isDigit)
    else none

def scanFrac : List Char → Option (List Char × List Char)
  | '.' :: r =>
    match r.takeWhile isDigit with
    | [] => none
    | ds => some ('.' :: ds, r.dropWhile isDigit)
  | r => some ([], r)

def scanExp : List Char → Option (List Char × List Char)
  | [] => some ([], [])
  | c :: r =>
    if c = 'e' ∨ c = 'E' then
      let sign := (r.take 1).filter fun d => d = '+' ∨ d = '-'
      let r1 := r.drop sign.length
      match r1.takeWhile isDigit with
      | [] => none
      | ds => some (c :: (sign ++ ds), r1.dropWhile isDigit)
    else some ([], c :: r)

def scanNumber (cs : List Char) : Option (List Char × List Char) := do
  let sign := (cs.take 1).filter fun d => d = '-'
  let (int, r) ← scanInt (cs.drop sign.length)
  let (frac, r) ← scanFrac r
  let (exp, r) ← scanExp r
  pure (sign ++ int ++ frac ++ exp, r)

def hexValue (c : Char) : Option Nat :=
  if isDigit c then some (c.toNat - 48)
  else if 'a' ≤ c ∧ c ≤ 'f' then some (c.toNat - 87)
  else if 'A' ≤ c ∧ c ≤ 'F' then some (c.toNat - 55)
  else none

def hex4 (a b c d : Char) : Option Nat := do
  let a ← hexValue a
  let b ← hexValue b
  let c ← hexValue c
  let d ← hexValue d
  pure (a * 4096 + b * 256 + c * 16 + d)

def isSurrogate (u : Nat) : Bool := 0xD800 ≤ u && u ≤ 0xDFFF

def isHighSurrogate (u : Nat) : Bool := 0xD800 ≤ u && u ≤ 0xDBFF

def decodeSurrogates (u v : Nat) : Option Char :=
  if isHighSurrogate u = true ∧ 0xDC00 ≤ v ∧ v ≤ 0xDFFF then
    some (Char.ofNat ((u - 0xD800) * 1024 + (v - 0xDC00) + 0x10000))
  else none

def simpleEscape (c : Char) : Option Char :=
  if c = '"' ∨ c = '\\' ∨ c = '/' then some c
  else if c = 'b' then some '\x08'
  else if c = 'f' then some '\x0c'
  else if c = 'n' then some '\n'
  else if c = 'r' then some '\r'
  else if c = 't' then some '\t'
  else none

def flush (pending : Option Nat) : List Char :=
  if pending.isSome then [runeError] else []

def scanString : Option Nat → List Char → Option (List Char × List Char)
  | _, [] => none
  | pending, '"' :: rest => some (flush pending, rest)
  | pending, '\\' :: 'u' :: a :: b :: c :: d :: rest =>
    match hex4 a b c d with
    | none => none
    | some u =>
      match pending.bind fun h => decodeSurrogates h u with
      | some ch => (scanString none rest).map fun p => (ch :: p.1, p.2)
      | none =>
        if isHighSurrogate u then
          (scanString (some u) rest).map fun p => (flush pending ++ p.1, p.2)
        else
          let ch := if isSurrogate u then runeError else Char.ofNat u
          (scanString none rest).map fun p => (flush pending ++ ch :: p.1, p.2)
  | pending, '\\' :: c :: rest =>
    match simpleEscape c with
    | none => none
    | some ch => (scanString none rest).map fun p => (flush pending ++ ch :: p.1, p.2)
  | pending, c :: rest =>
    if c < ' ' ∨ c = '\\' then none
    else (scanString none rest).map fun p => (flush pending ++ c :: p.1, p.2)

def scanWord (word : List Char) (v : Value) (cs : List Char) : Option (Value × List Char) :=
  if word.isPrefixOf cs then some (v, cs.drop word.length) else none

def readNumber (cs : List Char) : Option (Value × List Char) :=
  match scanNumber cs with
  | none => none
  | some (t, r) =>
    if h : t ≠ [] ∧ t.all isNumberChar = true then
      some (.number ⟨t, h.1, all_eq_true.mp h.2⟩, r)
    else none

mutual

def readValue : Nat → Nat → List Char → Option (Value × List Char)
  | 0, _, _ => none
  | fuel + 1, depth, cs =>
    match skipSpace cs with
    | [] => none
    | '{' :: r =>
      match depth with
      | 0 => none
      | depth + 1 =>
        match skipSpace r with
        | '}' :: r => some (.obj .nil, r)
        | r => (readMembers fuel depth r).map fun p => (.obj p.1, p.2)
    | '[' :: r =>
      match depth with
      | 0 => none
      | depth + 1 =>
        match skipSpace r with
        | ']' :: r => some (.arr .nil, r)
        | r => (readElems fuel depth r).map fun p => (.arr p.1, p.2)
    | '"' :: r => (scanString none r).map fun p => (.str (String.ofList p.1), p.2)
    | 't' :: r => scanWord "true".toList (.bool true) ('t' :: r)
    | 'f' :: r => scanWord "false".toList (.bool false) ('f' :: r)
    | 'n' :: r => scanWord "null".toList .null ('n' :: r)
    | r => readNumber r

def readElems : Nat → Nat → List Char → Option (Elems × List Char)
  | 0, _, _ => none
  | fuel + 1, depth, cs =>
    match readValue fuel depth cs with
    | none => none
    | some (x, r) =>
      match skipSpace r with
      | ',' :: r => (readElems fuel depth r).map fun p => (.cons x p.1, p.2)
      | ']' :: r => some (.cons x .nil, r)
      | _ => none

def readMembers : Nat → Nat → List Char → Option (Members × List Char)
  | 0, _, _ => none
  | fuel + 1, depth, cs =>
    match skipSpace cs with
    | '"' :: r =>
      match scanString none r with
      | none => none
      | some (k, r) =>
        match skipSpace r with
        | ':' :: r =>
          match readValue fuel depth r with
          | none => none
          | some (v, r) =>
            match skipSpace r with
            | ',' :: r =>
              (readMembers fuel depth r).map fun p =>
                (p.1.insert (String.ofList k) v, p.2)
            | '}' :: r => some (.cons (String.ofList k) v .nil, r)
            | _ => none
        | _ => none
    | _ => none

end

def maxNestingDepth : Nat := 10000

def readFirst (raw : Bytes) : Option (Value × List Char) :=
  let cs := decodeUtf8 raw
  readValue (2 * cs.length + 2) maxNestingDepth cs

def decode (raw : Bytes) : Option Value := (readFirst raw).map Prod.fst

def unmarshal (raw : Bytes) : Option Value :=
  match readFirst raw with
  | some (v, rest) => if skipSpace rest = [] then some v else none
  | none => none

def hexDigit (n : Nat) : Char := Char.ofNat (if n < 10 then 48 + n else 87 + n)

def escapeRune (c : Char) : List Char :=
  if c = '\\' ∨ c = '"' then ['\\', c]
  else if c = '\x08' then ['\\', 'b']
  else if c = '\x0c' then ['\\', 'f']
  else if c = '\n' then ['\\', 'n']
  else if c = '\r' then ['\\', 'r']
  else if c = '\t' then ['\\', 't']
  else if c < ' ' ∨ c = '<' ∨ c = '>' ∨ c = '&' then
    ['\\', 'u', '0', '0', hexDigit (c.toNat / 16), hexDigit (c.toNat % 16)]
  else if c = Char.ofNat 0x2028 ∨ c = Char.ofNat 0x2029 then
    ['\\', 'u', '2', '0', '2', hexDigit (c.toNat % 16)]
  else [c]

def quote (s : String) : List Char := '"' :: (s.toList.flatMap escapeRune ++ ['"'])

mutual

def writeCanonicalValue : Value → List Char
  | .null => "null".toList
  | .bool true => "true".toList
  | .bool false => "false".toList
  | .number n => n.text
  | .str s => quote s
  | .arr .nil => "[]".toList
  | .arr (.cons x xs) => '[' :: (writeCanonicalValue x ++ writeElems xs)
  | .obj .nil => ['{', '}']
  | .obj (.cons k v ms) =>
    '{' :: (quote k ++ ':' :: (writeCanonicalValue v ++ writeMembers ms))

def writeElems : Elems → List Char
  | .nil => [']']
  | .cons x xs => ',' :: (writeCanonicalValue x ++ writeElems xs)

def writeMembers : Members → List Char
  | .nil => ['}']
  | .cons k v ms =>
    ',' :: (quote k ++ ':' :: (writeCanonicalValue v ++ writeMembers ms))

end

/-! ## String literals read back

The decoder inverts the escapes one character at a time; a quoted string can
therefore be cut off the front of a text in one way.
-/

theorem hexValue_hexDigit : ∀ n < 16, hexValue (hexDigit n) = some n := by decide

theorem hex4_zero_zero {n : Nat} (hn : n < 256) :
    hex4 '0' '0' (hexDigit (n / 16)) (hexDigit (n % 16)) = some n := by
  have hzero : hexValue '0' = some 0 := by decide
  have hhi := hexValue_hexDigit (n / 16) (by omega)
  have hlo := hexValue_hexDigit (n % 16) (by omega)
  simp only [hex4, hzero, hhi, hlo, Option.bind_eq_bind, Option.bind_some]
  exact congrArg some (by omega)

theorem scanString_low_escape {c : Char} (hc : c.toNat < 256) (rest : List Char) :
    scanString none ('\\' :: 'u' :: '0' :: '0' :: hexDigit (c.toNat / 16)
        :: hexDigit (c.toNat % 16) :: rest) =
      (scanString none rest).map fun p => (c :: p.1, p.2) := by
  have hhigh : isHighSurrogate c.toNat = false := by
    simp [isHighSurrogate]; omega
  have hsur : isSurrogate c.toNat = false := by
    simp [isSurrogate]; omega
  simp [scanString, hex4_zero_zero hc, hhigh, hsur, flush, Char.ofNat_toNat]

theorem scanString_escapeRune (c : Char) (rest : List Char) :
    scanString none (escapeRune c ++ rest) =
      (scanString none rest).map fun p => (c :: p.1, p.2) := by
  unfold escapeRune
  split_ifs with hquote hb hf hn hr ht hlow hsep
  · rcases hquote with rfl | rfl <;> simp [scanString, simpleEscape, flush]
  · subst hb; simp [scanString, simpleEscape, flush]
  · subst hf; simp [scanString, simpleEscape, flush]
  · subst hn; simp [scanString, simpleEscape, flush]
  · subst hr; simp [scanString, simpleEscape, flush]
  · subst ht; simp [scanString, simpleEscape, flush]
  · have hc : c.toNat < 256 := by
      rcases hlow with hlt | rfl | rfl | rfl
      · have : c.toNat < 32 := hlt
        omega
      all_goals decide
    exact scanString_low_escape hc rest
  · have hcode : hex4 '2' '0' '2' (hexDigit (c.toNat % 16)) = some c.toNat := by
      rcases hsep with rfl | rfl <;> decide
    have hhigh : isHighSurrogate c.toNat = false := by
      rcases hsep with rfl | rfl <;> decide
    have hsur : isSurrogate c.toNat = false := by
      rcases hsep with rfl | rfl <;> decide
    simp [scanString, hcode, hhigh, hsur, flush, Char.ofNat_toNat]
  · -- An unescaped character is neither a quote nor a backslash nor a control.
    obtain ⟨hne, hne'⟩ := not_or.mp hquote
    have hge : ¬ c < ' ' := fun h => hlow (Or.inl h)
    simp only [cons_append, nil_append]
    rw [scanString.eq_def]
    split <;> simp_all [flush]

theorem scanString_quoted (cs rest : List Char) :
    scanString none (cs.flatMap escapeRune ++ '"' :: rest) = some (cs, rest) := by
  induction cs with
  | nil => simp [scanString, flush]
  | cons c cs ih =>
    rw [flatMap_cons, append_assoc, scanString_escapeRune, ih]
    rfl

variable {r : List Char}

theorem quote_append_inj {s t : String} {r' : List Char}
    (h : quote s ++ r = quote t ++ r') : s = t ∧ r = r' := by
  simp only [quote, cons_append, append_assoc, nil_append,
    List.cons.injEq, true_and] at h
  have hscan := congrArg (scanString none) h
  rw [scanString_quoted, scanString_quoted] at hscan
  simp only [Option.some.injEq, Prod.mk.injEq] at hscan
  exact ⟨String.toList_inj.mp hscan.1, hscan.2⟩

def Stops (r : List Char) : Prop := ∀ c ∈ r.head?, isNumberChar c = false

theorem stops_nil : Stops [] := by
  intro c hc
  cases hc

theorem stops_cons {c : Char} (h : isNumberChar c = false) : Stops (c :: r) := by
  intro d hd
  cases hd
  exact h

theorem stops_writeElems (xs : Elems) (r : List Char) : Stops (writeElems xs ++ r) := by
  cases xs <;> simp only [writeElems, cons_append] <;> exact stops_cons (by decide)

theorem stops_writeMembers (ms : Members) (r : List Char) : Stops (writeMembers ms ++ r) := by
  cases ms <;> simp only [writeMembers, cons_append] <;> exact stops_cons (by decide)

theorem takeWhile_number (n : Number) (hr : Stops r) :
    (n.text ++ r).takeWhile isNumberChar = n.text := by
  rw [takeWhile_append_of_pos n.chars]
  cases r with
  | nil => simp
  | cons c r => simp [hr c rfl]

theorem number_append_inj {m n : Number} {r' : List Char}
    (hr : Stops r) (hr' : Stops r') (h : m.text ++ r = n.text ++ r') : m = n ∧ r = r' := by
  have htext : m.text = n.text := by
    rw [← takeWhile_number m hr, h, takeWhile_number n hr']
  have hmn : m = n := by
    cases m
    cases n
    simp_all
  subst hmn
  exact ⟨rfl, append_cancel_left h⟩

inductive Kind where
  | null | bool | number | str | arr | obj
  deriving DecidableEq

def Value.kind : Value → Kind
  | .null => .null
  | .bool _ => .bool
  | .number _ => .number
  | .str _ => .str
  | .arr _ => .arr
  | .obj _ => .obj

def kindOfLead (c : Char) : Kind :=
  if isNumberChar c then .number
  else if c = 'n' then .null
  else if c = '"' then .str
  else if c = '[' then .arr
  else if c = '{' then .obj
  else .bool

theorem writeCanonicalValue_lead (v : Value) :
    ∃ c t, writeCanonicalValue v = c :: t ∧ kindOfLead c = v.kind ∧ c ≠ ']' ∧ c ≠ '}' ∧
      isSpace c = false := by
  cases v with
  | null => exact ⟨'n', "ull".toList, rfl, by decide, by decide, by decide, by decide⟩
  | bool b =>
    cases b with
    | true => exact ⟨'t', "rue".toList, rfl, by decide, by decide, by decide, by decide⟩
    | false => exact ⟨'f', "alse".toList, rfl, by decide, by decide, by decide, by decide⟩
  | number n =>
    cases htext : n.text with
    | nil => exact absurd htext n.ne_nil
    | cons c t =>
      have hc : isNumberChar c = true := n.chars c (by simp [htext])
      refine ⟨c, t, by rw [writeCanonicalValue, htext], ?_, ?_, ?_, ?_⟩
      · simp [kindOfLead, hc, Value.kind]
      · rintro rfl
        exact absurd hc (by decide)
      · rintro rfl
        exact absurd hc (by decide)
      · by_contra hspace
        simp only [isSpace, Bool.not_eq_false, Bool.or_eq_true, beq_iff_eq] at hspace
        rcases hspace with ((rfl | rfl) | rfl) | rfl <;> exact absurd hc (by decide)
  | str s => exact ⟨'"', _, rfl, rfl, by decide, by decide, by decide⟩
  | arr xs => cases xs <;> exact ⟨'[', _, rfl, rfl, by decide, by decide, by decide⟩
  | obj ms => cases ms <;> exact ⟨'{', _, rfl, rfl, by decide, by decide, by decide⟩

theorem kind_eq_of_append {v w : Value} {s : List Char}
    (h : writeCanonicalValue v ++ r = writeCanonicalValue w ++ s) : v.kind = w.kind := by
  obtain ⟨c, t, hv, hc, _⟩ := writeCanonicalValue_lead v
  obtain ⟨d, u, hw, hd, _⟩ := writeCanonicalValue_lead w
  rw [hv, hw, cons_append, cons_append, List.cons.injEq] at h
  rw [← hc, ← hd, h.1]

theorem close_ne_value (v : Value) (r s : List Char) : ']' :: r ≠ writeCanonicalValue v ++ s := by
  obtain ⟨c, t, hv, _, hc, _⟩ := writeCanonicalValue_lead v
  intro h
  rw [hv, cons_append, List.cons.injEq] at h
  exact hc h.1.symm

mutual

theorem writeCanonicalValue_append_inj (v w : Value) (r s : List Char) (hr : Stops r) (hs : Stops s)
    (h : writeCanonicalValue v ++ r = writeCanonicalValue w ++ s) : v = w ∧ r = s := by
  have hkind := kind_eq_of_append h
  cases v with
  | null =>
    cases w with
    | null => simpa [writeCanonicalValue] using h
    | _ => cases hkind
  | bool b =>
    cases w with
    | bool b' => cases b <;> cases b' <;> simp_all [writeCanonicalValue]
    | _ => cases hkind
  | number m =>
    cases w with
    | number n =>
      obtain ⟨hmn, hrs⟩ := number_append_inj hr hs h
      exact ⟨by rw [hmn], hrs⟩
    | _ => cases hkind
  | str t =>
    cases w with
    | str t' =>
      obtain ⟨htt, hrs⟩ := quote_append_inj h
      exact ⟨by rw [htt], hrs⟩
    | _ => cases hkind
  | arr xs =>
    cases w with
    | arr ys =>
      cases xs with
      | nil =>
        cases ys with
        | nil => simpa [writeCanonicalValue] using h
        | cons y ys =>
          simp only [writeCanonicalValue, cons_append, append_assoc] at h
          exact absurd (List.cons.inj h).2 (close_ne_value y r _)
      | cons x xs =>
        cases ys with
        | nil =>
          simp only [writeCanonicalValue, cons_append, append_assoc] at h
          exact absurd (List.cons.inj h).2.symm (close_ne_value x s _)
        | cons y ys =>
          obtain ⟨hxs, hrs⟩ := writeElems_append_inj (.cons x xs) (.cons y ys) r s
            (by simpa [writeCanonicalValue, writeElems] using h)
          exact ⟨by rw [hxs], hrs⟩
    | _ => cases hkind
  | obj ms =>
    cases w with
    | obj ns =>
      cases ms with
      | nil =>
        cases ns with
        | nil => simpa [writeCanonicalValue] using h
        | cons l w ns => simp [writeCanonicalValue, quote] at h
      | cons k v ms =>
        cases ns with
        | nil => simp [writeCanonicalValue, quote] at h
        | cons l w ns =>
          obtain ⟨hms, hrs⟩ := writeMembers_append_inj (.cons k v ms) (.cons l w ns) r s
            (by simpa [writeCanonicalValue, writeMembers] using h)
          exact ⟨by rw [hms], hrs⟩
    | _ => cases hkind

theorem writeElems_append_inj (xs ys : Elems) (r s : List Char)
    (h : writeElems xs ++ r = writeElems ys ++ s) : xs = ys ∧ r = s := by
  cases xs with
  | nil =>
    cases ys with
    | nil => simpa [writeElems] using h
    | cons y ys => simp [writeElems] at h
  | cons x xs =>
    cases ys with
    | nil => simp [writeElems] at h
    | cons y ys =>
      simp only [writeElems, cons_append, append_assoc, List.cons.injEq, true_and] at h
      obtain ⟨hxy, htail⟩ := writeCanonicalValue_append_inj x y _ _
        (stops_writeElems xs r) (stops_writeElems ys s) h
      obtain ⟨hxs, hrs⟩ := writeElems_append_inj xs ys r s htail
      exact ⟨by rw [hxy, hxs], hrs⟩

theorem writeMembers_append_inj (ms ns : Members) (r s : List Char)
    (h : writeMembers ms ++ r = writeMembers ns ++ s) : ms = ns ∧ r = s := by
  cases ms with
  | nil =>
    cases ns with
    | nil => simpa [writeMembers] using h
    | cons l w ns => simp [writeMembers] at h
  | cons k v ms =>
    cases ns with
    | nil => simp [writeMembers] at h
    | cons l w ns =>
      simp only [writeMembers, cons_append, append_assoc, List.cons.injEq, true_and] at h
      obtain ⟨hkl, hrest⟩ := quote_append_inj h
      obtain ⟨hvw, htail⟩ := writeCanonicalValue_append_inj v w _ _
        (stops_writeMembers ms r) (stops_writeMembers ns s)
        (List.cons.inj hrest).2
      obtain ⟨hms, hrs⟩ := writeMembers_append_inj ms ns r s htail
      exact ⟨by rw [hkl, hvw, hms], hrs⟩

end

theorem writeCanonicalValue_injective : Function.Injective writeCanonicalValue := by
  intro v w h
  have happ : writeCanonicalValue v ++ [] = writeCanonicalValue w ++ [] := by
    rw [h]
  exact (writeCanonicalValue_append_inj v w [] [] stops_nil stops_nil happ).1

def canonicaliseJSON (raw : Bytes) : Option Bytes :=
  (decode raw).map fun v => utf8 (writeCanonicalValue v)

theorem canonicaliseJSON_inj {raw raw' : Bytes} {b : Bytes}
    (h : canonicaliseJSON raw = some b) (h' : canonicaliseJSON raw' = some b) :
    decode raw = decode raw' := by
  obtain ⟨v, hv, hb⟩ := Option.map_eq_some_iff.mp h
  obtain ⟨w, hw, hb'⟩ := Option.map_eq_some_iff.mp h'
  have hvw : v = w :=
    writeCanonicalValue_injective (utf8_injective (hb.trans hb'.symm))
  rw [hv, hw, hvw]

theorem canonicaliseJSON_isSome_iff (raw : Bytes) :
    (canonicaliseJSON raw).isSome ↔ (decode raw).isSome := by
  simp [canonicaliseJSON]

-- White space and key order go, the number's spelling stays.
example : canonicaliseJSON (stringBytes " [ 2.50, true ]") = some (stringBytes "[2.50,true]") := by
  decide +kernel

/-! ## One field of a struct

`json.Unmarshal` into a struct with one string field.  Keys are compared
without case and the assignments happen in the order of the text, so the
members are read once more as they stand: the map has lost both.
-/

def orderedMembers : Nat → Nat → List Char → List (String × Value)
  | 0, _, _ => []
  | fuel + 1, depth, cs =>
    match skipSpace cs with
    | '"' :: r =>
      match scanString none r with
      | none => []
      | some (k, r) =>
        match readValue fuel depth ((skipSpace r).drop 1) with
        | none => []
        | some (v, r) =>
          (String.ofList k, v) :: orderedMembers fuel depth ((skipSpace r).drop 1)
    | _ => []

def foldRune (c : Char) : Char :=
  if c.toNat = 0x17F then 's' else if c.toNat = 0x212A then 'k' else c.toLower

def foldName (s : String) : List Char := s.toList.map foldRune

def assignField (name : String) : String → List (String × Value) → Option String
  | current, [] => some current
  | current, (k, v) :: ms =>
    if foldName k = foldName name then
      match v with
      | .str s => assignField name s ms
      | .null => assignField name current ms
      | _ => none
    else assignField name current ms

def stringField (name : String) (raw : Bytes) : Option String :=
  match unmarshal raw with
  | some .null => some ""
  | some (.obj _) =>
    let cs := (skipSpace (decodeUtf8 raw)).drop 1
    assignField name "" (orderedMembers (2 * cs.length + 2) (maxNestingDepth - 1) cs)
  | _ => none

-- The last spelling wins, whatever its case.
example : stringField "jti"
    (stringBytes "\x7b\"jti\":\"a\",\"x\":[1],\"JTI\":\"b\"\x7d") = some "b" := by
  decide +kernel

end OciJanus.Verified.Json
