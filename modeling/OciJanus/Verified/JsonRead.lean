import OciJanus.Verified.Json

/-!
# What the decoder makes of written text

The decoder inverts the writer, up to the order of the members of an object. Values are those
without numbers.
-/

namespace OciJanus.Verified.Json

open List

mutual

def Value.textual : Value → Bool
  | .number _ => false
  | .arr xs => xs.textual
  | .obj ms => ms.textual
  | _ => true

def Elems.textual : Elems → Bool
  | .nil => true
  | .cons x xs => x.textual && xs.textual

def Members.textual : Members → Bool
  | .nil => true
  | .cons _ v ms => v.textual && ms.textual

end

mutual

def Value.ordered : Value → Value
  | .arr xs => .arr xs.ordered
  | .obj ms => .obj ms.ordered
  | v => v

def Elems.ordered : Elems → Elems
  | .nil => .nil
  | .cons x xs => .cons x.ordered xs.ordered

def Members.ordered : Members → Members
  | .nil => .nil
  | .cons k v ms => ms.ordered.insert k v.ordered

end

mutual

def Value.height : Value → Nat
  | .arr xs => xs.height + 1
  | .obj ms => ms.height + 1
  | _ => 0

def Elems.height : Elems → Nat
  | .nil => 0
  | .cons x xs => max x.height xs.height

def Members.height : Members → Nat
  | .nil => 0
  | .cons _ v ms => max v.height ms.height

end

theorem skipSpace_cons {c : Char} {r : List Char} (h : isSpace c = false) :
    skipSpace (c :: r) = c :: r := by
  simp [skipSpace, h]

theorem skipSpace_write (v : Value) (r : List Char) :
    skipSpace (writeCanonicalValue v ++ r) = writeCanonicalValue v ++ r := by
  obtain ⟨c, rest, hc, _, _, _, hspace⟩ := writeCanonicalValue_lead v
  rw [hc, cons_append, skipSpace_cons hspace]

theorem write_length_pos (v : Value) : 0 < (writeCanonicalValue v).length := by
  obtain ⟨c, rest, hc, _⟩ := writeCanonicalValue_lead v
  rw [hc]
  simp

/-! ### One character decides

What the reader does once the first character is known.
-/

section Lead

variable (fuel depth : Nat) (r : List Char)

theorem readValue_string :
    readValue (fuel + 1) depth ('"' :: r) =
      (scanString none r).map fun p => (.str (String.ofList p.1), p.2) := by
  rw [readValue, skipSpace_cons (by decide)]
  rfl

theorem readValue_emptyArray :
    readValue (fuel + 1) (depth + 1) ('[' :: ']' :: r) = some (.arr .nil, r) := by
  rw [readValue, skipSpace_cons (by decide)]
  simp only [skipSpace_cons (c := ']') (by decide)]

theorem readValue_emptyObject :
    readValue (fuel + 1) (depth + 1) ('{' :: '}' :: r) = some (.obj .nil, r) := by
  rw [readValue, skipSpace_cons (by decide)]
  simp only [skipSpace_cons (c := '}') (by decide)]

variable {r}

theorem readValue_array {c : Char} {rest : List Char} (hr : r = c :: rest)
    (hspace : isSpace c = false) (hc : c ≠ ']') :
    readValue (fuel + 1) (depth + 1) ('[' :: r) =
      (readElems fuel depth r).map fun p => (.arr p.1, p.2) := by
  subst hr
  rw [readValue, skipSpace_cons (by decide)]
  simp only [skipSpace_cons hspace]
  split
  · rename_i heq
    cases heq
    exact absurd rfl hc
  · rfl

theorem readValue_object {c : Char} {rest : List Char} (hr : r = c :: rest)
    (hspace : isSpace c = false) (hc : c ≠ '}') :
    readValue (fuel + 1) (depth + 1) ('{' :: r) =
      (readMembers fuel depth r).map fun p => (.obj p.1, p.2) := by
  subst hr
  rw [readValue, skipSpace_cons (by decide)]
  simp only [skipSpace_cons hspace]
  split
  · rename_i heq
    cases heq
    exact absurd rfl hc
  · rfl

theorem readElems_comma {x : Value} {cs : List Char}
    (hx : readValue fuel depth cs = some (x, ',' :: r)) :
    readElems (fuel + 1) depth cs = (readElems fuel depth r).map fun p => (.cons x p.1, p.2) := by
  rw [readElems, hx]
  simp only [skipSpace_cons (c := ',') (by decide)]

theorem readElems_close {x : Value} {cs : List Char}
    (hx : readValue fuel depth cs = some (x, ']' :: r)) :
    readElems (fuel + 1) depth cs = some (.cons x .nil, r) := by
  rw [readElems, hx]
  simp only [skipSpace_cons (c := ']') (by decide)]

theorem readMembers_comma {k : String} {v : Value} {cs : List Char}
    (hv : readValue fuel depth cs = some (v, ',' :: r)) :
    readMembers (fuel + 1) depth (quote k ++ ':' :: cs) =
      (readMembers fuel depth r).map fun p => (p.1.insert k v, p.2) := by
  have hkey := scanString_quoted k.toList (':' :: cs)
  rw [readMembers]
  simp only [quote, cons_append, append_assoc, nil_append,
    skipSpace_cons (c := '"') (by decide), hkey, skipSpace_cons (c := ':') (by decide), hv,
    skipSpace_cons (c := ',') (by decide), String.ofList_toList]

theorem readMembers_close {k : String} {v : Value} {cs : List Char}
    (hv : readValue fuel depth cs = some (v, '}' :: r)) :
    readMembers (fuel + 1) depth (quote k ++ ':' :: cs) = some (.cons k v .nil, r) := by
  have hkey := scanString_quoted k.toList (':' :: cs)
  rw [readMembers]
  simp only [quote, cons_append, append_assoc, nil_append,
    skipSpace_cons (c := '"') (by decide), hkey, skipSpace_cons (c := ':') (by decide), hv,
    skipSpace_cons (c := '}') (by decide), String.ofList_toList]

end Lead

def elemsText : Elems → List Char
  | .nil => []
  | .cons x xs => writeCanonicalValue x ++ writeElems xs

def membersText : Members → List Char
  | .nil => []
  | .cons k v ms => quote k ++ ':' :: (writeCanonicalValue v ++ writeMembers ms)

theorem length_membersText_cons (k k' : String) (v v' : Value) (ms : Members) :
    (membersText (.cons k v (.cons k' v' ms))).length = (quote k).length + 1 +
      ((writeCanonicalValue v).length + ((membersText (.cons k' v' ms)).length + 1)) := by
  simp only [membersText, writeMembers, length_append, length_cons]
  omega

mutual

theorem readValue_write (v : Value) (hv : v.textual = true) (fuel depth : Nat) (r : List Char)
    (hfuel : 2 * (writeCanonicalValue v).length ≤ fuel) (hdepth : v.height ≤ depth) :
    readValue fuel depth (writeCanonicalValue v ++ r) = some (v.ordered, r) := by
  have hpos := write_length_pos v
  obtain ⟨f, rfl⟩ : ∃ f, fuel = f + 1 := ⟨fuel - 1, by omega⟩
  match v, hv, hfuel, hdepth with
  | .null, _, _, _ =>
    rw [readValue, skipSpace_write]
    rfl
  | .bool true, _, _, _ =>
    rw [readValue, skipSpace_write]
    rfl
  | .bool false, _, _, _ =>
    rw [readValue, skipSpace_write]
    rfl
  | .str s, _, _, _ =>
    have hs := scanString_quoted s.toList r
    show readValue (f + 1) depth ('"' :: (s.toList.flatMap escapeRune ++ ['"'] ++ r)) = _
    rw [readValue_string, append_assoc]
    simp [hs, Value.ordered]
  | .arr .nil, _, _, hdepth =>
    obtain ⟨d, rfl⟩ : ∃ d, depth = d + 1 := ⟨depth - 1, by simp [Value.height] at hdepth; omega⟩
    exact readValue_emptyArray f d r
  | .arr (.cons x xs), hv, hfuel, hdepth =>
    simp only [Value.height] at hdepth
    obtain ⟨d, rfl⟩ : ∃ d, depth = d + 1 := ⟨depth - 1, by omega⟩
    obtain ⟨c, rest, hc, _, hbracket, _, hspace⟩ := writeCanonicalValue_lead x
    have hread := readElems_write (.cons x xs) hv (by simp) f d r
      (by simp only [writeCanonicalValue, elemsText, length_cons] at hfuel ⊢; omega)
      (by omega)
    have hlead : elemsText (.cons x xs) ++ r = c :: (rest ++ (writeElems xs ++ r)) := by
      simp [elemsText, hc]
    show readValue (f + 1) (d + 1) ('[' :: (elemsText (.cons x xs) ++ r)) = _
    rw [readValue_array f d hlead hspace hbracket, hread]
    rfl
  | .obj .nil, _, _, hdepth =>
    obtain ⟨d, rfl⟩ : ∃ d, depth = d + 1 := ⟨depth - 1, by simp [Value.height] at hdepth; omega⟩
    exact readValue_emptyObject f d r
  | .obj (.cons k v ms), hv, hfuel, hdepth =>
    simp only [Value.height] at hdepth
    obtain ⟨d, rfl⟩ : ∃ d, depth = d + 1 := ⟨depth - 1, by omega⟩
    have hread := readMembers_write (.cons k v ms) hv (by simp) f d r
      (by simp only [writeCanonicalValue, membersText, length_cons] at hfuel ⊢; omega)
      (by omega)
    have hlead : ∃ rest, membersText (.cons k v ms) ++ r = '"' :: rest := ⟨_, rfl⟩
    obtain ⟨rest, hlead⟩ := hlead
    show readValue (f + 1) (d + 1) ('{' :: (membersText (.cons k v ms) ++ r)) = _
    rw [readValue_object f d hlead (by decide) (by decide), hread]
    rfl

theorem readElems_write (xs : Elems) (hxs : xs.textual = true) (hne : xs ≠ .nil)
    (fuel depth : Nat) (r : List Char) (hfuel : 2 * (elemsText xs).length + 1 ≤ fuel)
    (hdepth : xs.height ≤ depth) :
    readElems fuel depth (elemsText xs ++ r) = some (xs.ordered, r) := by
  obtain ⟨f, rfl⟩ : ∃ f, fuel = f + 1 := ⟨fuel - 1, by omega⟩
  match xs, hxs, hne, hfuel, hdepth with
  | .cons x .nil, hxs, _, hfuel, hdepth =>
    simp only [Elems.textual, Bool.and_eq_true] at hxs
    simp only [Elems.height] at hdepth
    have hx := readValue_write x hxs.1 f depth (']' :: r)
      (by simp only [elemsText, length_append] at hfuel; omega) (by omega)
    have htext : elemsText (.cons x .nil) ++ r = writeCanonicalValue x ++ ']' :: r := by
      simp [elemsText, writeElems]
    rw [htext, readElems_close f depth hx]
    rfl
  | .cons x (.cons y ys), hxs, _, hfuel, hdepth =>
    simp only [Elems.textual, Bool.and_eq_true] at hxs
    simp only [Elems.height] at hdepth
    have hlen : (elemsText (.cons x (.cons y ys))).length =
        (writeCanonicalValue x).length + ((elemsText (.cons y ys)).length + 1) := by
      simp [elemsText, writeElems]
    have hx := readValue_write x hxs.1 f depth (',' :: (elemsText (.cons y ys) ++ r))
      (by omega) (by omega)
    have hpos := write_length_pos x
    have hrest := readElems_write (.cons y ys) (by simpa [Elems.textual] using hxs.2) (by simp)
      f depth r (by omega) (by simp only [Elems.height]; omega)
    have htext : elemsText (.cons x (.cons y ys)) ++ r =
        writeCanonicalValue x ++ ',' :: (elemsText (.cons y ys) ++ r) := by
      simp [elemsText, writeElems]
    rw [htext, readElems_comma f depth hx, hrest]
    rfl

theorem readMembers_write (ms : Members) (hms : ms.textual = true) (hne : ms ≠ .nil)
    (fuel depth : Nat) (r : List Char) (hfuel : 2 * (membersText ms).length + 1 ≤ fuel)
    (hdepth : ms.height ≤ depth) :
    readMembers fuel depth (membersText ms ++ r) = some (ms.ordered, r) := by
  obtain ⟨f, rfl⟩ : ∃ f, fuel = f + 1 := ⟨fuel - 1, by omega⟩
  match ms, hms, hne, hfuel, hdepth with
  | .cons k v .nil, hms, _, hfuel, hdepth =>
    simp only [Members.textual, Bool.and_eq_true] at hms
    simp only [Members.height] at hdepth
    have hv := readValue_write v hms.1 f depth ('}' :: r)
      (by simp only [membersText, length_append, length_cons] at hfuel; omega)
      (by omega)
    have htext : membersText (.cons k v .nil) ++ r =
        quote k ++ ':' :: (writeCanonicalValue v ++ '}' :: r) := by
      simp [membersText, writeMembers]
    rw [htext, readMembers_close f depth hv]
    rfl
  | .cons k v (.cons k' v' ms), hms, _, hfuel, hdepth =>
    simp only [Members.textual, Bool.and_eq_true] at hms
    simp only [Members.height] at hdepth
    have hlen := length_membersText_cons k k' v v' ms
    have hv := readValue_write v hms.1 f depth (',' :: (membersText (.cons k' v' ms) ++ r))
      (by omega) (by omega)
    have hrest := readMembers_write (.cons k' v' ms)
      (by simpa [Members.textual] using hms.2) (by simp) f depth r (by omega)
      (by simp only [Members.height]; omega)
    have htext : membersText (.cons k v (.cons k' v' ms)) ++ r =
        quote k ++ ':' :: (writeCanonicalValue v ++
          ',' :: (membersText (.cons k' v' ms) ++ r)) := by
      simp [membersText, writeMembers]
    rw [htext, readMembers_comma f depth hv, hrest]
    rfl

end

def unmarshalText (cs : List Char) : Option Value :=
  match readValue (2 * cs.length + 2) maxNestingDepth cs with
  | some (v, rest) => if skipSpace rest = [] then some v else none
  | none => none

def textMembers (cs : List Char) : Option (List (String × Value)) :=
  match unmarshalText cs with
  | some .null => some []
  | some (.obj _) =>
    let inner := (skipSpace cs).drop 1
    some (orderedMembers (2 * inner.length + 2) (maxNestingDepth - 1) inner)
  | _ => none

theorem unmarshalText_write (v : Value) (hv : v.textual = true)
    (hheight : v.height ≤ maxNestingDepth) :
    unmarshalText (writeCanonicalValue v) = some v.ordered := by
  have hread := readValue_write v hv (2 * (writeCanonicalValue v).length + 2) maxNestingDepth []
    (by omega) hheight
  rw [append_nil] at hread
  simp [unmarshalText, hread, skipSpace]

def Members.entries : Members → List (String × Value)
  | .nil => []
  | .cons k v ms => (k, v.ordered) :: ms.entries

theorem orderedMembers_next {fuel depth : Nat} {k : String} {v : Value} {cs r : List Char}
    (hv : readValue fuel depth cs = some (v, r)) :
    orderedMembers (fuel + 1) depth (quote k ++ ':' :: cs) =
      (k, v) :: orderedMembers fuel depth ((skipSpace r).drop 1) := by
  have hkey := scanString_quoted k.toList (':' :: cs)
  rw [orderedMembers]
  simp only [quote, cons_append, append_assoc, nil_append,
    skipSpace_cons (c := '"') (by decide), hkey, skipSpace_cons (c := ':') (by decide),
    drop_succ_cons, drop_zero, hv, String.ofList_toList]

theorem orderedMembers_nil (fuel depth : Nat) : orderedMembers fuel depth [] = [] := by
  cases fuel <;> rfl

theorem orderedMembers_write (ms : Members) (hms : ms.textual = true) (fuel depth : Nat)
    (hfuel : 2 * (membersText ms).length + 1 ≤ fuel) (hdepth : ms.height ≤ depth) :
    orderedMembers fuel depth (membersText ms) = ms.entries := by
  obtain ⟨f, rfl⟩ : ∃ f, fuel = f + 1 := ⟨fuel - 1, by omega⟩
  match ms, hms, hfuel, hdepth with
  | .nil, _, _, _ => exact orderedMembers_nil _ _
  | .cons k v .nil, hms, hfuel, hdepth =>
    simp only [Members.textual, Bool.and_eq_true] at hms
    simp only [Members.height] at hdepth
    have hv := readValue_write v hms.1 f depth ['}']
      (by simp only [membersText, length_append, length_cons] at hfuel; omega)
      (by omega)
    show orderedMembers (f + 1) depth (quote k ++ ':' :: (writeCanonicalValue v ++ ['}'])) = _
    rw [orderedMembers_next hv, skipSpace_cons (by decide), drop_succ_cons, drop_zero,
      orderedMembers_nil]
    rfl
  | .cons k v (.cons k' v' ms), hms, hfuel, hdepth =>
    simp only [Members.textual, Bool.and_eq_true] at hms
    simp only [Members.height] at hdepth
    have hlen := length_membersText_cons k k' v v' ms
    have hv := readValue_write v hms.1 f depth (',' :: membersText (.cons k' v' ms))
      (by omega) (by omega)
    have hrest := orderedMembers_write (.cons k' v' ms)
      (by simpa [Members.textual] using hms.2) f depth (by omega)
      (by simp only [Members.height]; omega)
    show orderedMembers (f + 1) depth
      (quote k ++ ':' :: (writeCanonicalValue v ++ ',' :: membersText (.cons k' v' ms))) = _
    rw [orderedMembers_next hv, skipSpace_cons (by decide), drop_succ_cons, drop_zero,
      hrest]
    rfl

theorem textMembers_write (k : String) (v : Value) (ms : Members)
    (hms : (Members.cons k v ms).textual = true)
    (hheight : (Members.cons k v ms).height + 1 ≤ maxNestingDepth) :
    textMembers (writeCanonicalValue (.obj (.cons k v ms))) =
      some (Members.cons k v ms).entries := by
  have hvalue := unmarshalText_write (.obj (.cons k v ms)) hms hheight
  have htext : writeCanonicalValue (.obj (.cons k v ms)) =
      '{' :: membersText (.cons k v ms) := rfl
  unfold textMembers
  rw [hvalue]
  simp only [Value.ordered, htext, skipSpace_cons (c := '{') (by decide), drop_succ_cons,
    drop_zero]
  rw [orderedMembers_write _ hms _ _ (by omega) (by omega)]

theorem readNumber_eq_some {cs r : List Char} {v : Value} (h : readNumber cs = some (v, r)) :
    ∃ n, v = .number n := by
  unfold readNumber at h
  split at h
  · cases h
  · split at h
    · cases h
      exact ⟨_, rfl⟩
    · cases h

theorem scanWord_eq_some {word cs r : List Char} {v w : Value}
    (h : scanWord word w cs = some (v, r)) : v = w := by
  unfold scanWord at h
  split at h
  · cases h
    rfl
  · cases h

theorem readValue_kind {fuel depth : Nat} {c : Char} {cs r : List Char} {v : Value}
    (hspace : isSpace c = false) (hbrace : c ≠ '{') (hnull : c ≠ 'n')
    (h : readValue fuel depth (c :: cs) = some (v, r)) : v ≠ .null ∧ ∀ ms, v ≠ .obj ms := by
  cases fuel with
  | zero => cases h
  | succ fuel =>
    rw [readValue, skipSpace_cons hspace] at h
    split at h
    · rename_i heq
      cases heq
    · rename_i heq
      cases heq
      exact absurd rfl hbrace
    · -- an array
      cases depth with
      | zero => cases h
      | succ depth =>
        simp only at h
        split at h
        · cases h
          exact ⟨by simp, by simp⟩
        · obtain ⟨p, _, hp⟩ := Option.map_eq_some_iff.mp h
          cases hp
          exact ⟨by simp, by simp⟩
    · -- a string
      obtain ⟨p, _, hp⟩ := Option.map_eq_some_iff.mp h
      cases hp
      exact ⟨by simp, by simp⟩
    · rw [scanWord_eq_some h]
      exact ⟨by simp, by simp⟩
    · rw [scanWord_eq_some h]
      exact ⟨by simp, by simp⟩
    · rename_i heq
      cases heq
      exact absurd rfl hnull
    · obtain ⟨n, rfl⟩ := readNumber_eq_some h
      exact ⟨by simp, by simp⟩

theorem textMembers_eq_none {c : Char} {cs : List Char} (hspace : isSpace c = false)
    (hbrace : c ≠ '{') (hnull : c ≠ 'n') : textMembers (c :: cs) = none := by
  have hkind : ∀ v, unmarshalText (c :: cs) = some v → v ≠ .null ∧ ∀ ms, v ≠ .obj ms := by
    intro v hv
    unfold unmarshalText at hv
    split at hv
    · rename_i heq
      split at hv
      · cases hv
        exact readValue_kind hspace hbrace hnull heq
      · cases hv
    · cases hv
  unfold textMembers
  split
  · rename_i heq
    exact absurd rfl (hkind _ heq).1
  · rename_i ms heq
    exact absurd rfl ((hkind _ heq).2 ms)
  · rfl

end OciJanus.Verified.Json
