import Mathlib.Data.List.Basic

/-!
# Audit events as syslog lines

A value is escaped for RFC 5424 and once more by `%q`; a reader undoes one of the two.
-/

namespace OciJanus.Audit.SyslogExport

open List

/-- The time is as it is formatted. -/
structure Event where
  (id tenantID actorID actorType actorIP action resource outcome occurredAt : String)

def reserved (c : Char) : Bool := c == '\\' || c == '"' || c == ']'

def escapeSDValue (s : List Char) : List Char :=
  s.flatMap fun c => if reserved c then ['\\', c] else [c]

def hexDigits : Nat → Nat → List Char
  | 0, _ => []
  | width + 1, n => hexDigits width (n / 16) ++ [Nat.digitChar (n % 16)]

section
variable (isPrint : Char → Bool)

/-- `strconv.Quote`, for one character. -/
def quoteRune (c : Char) : List Char :=
  if c = '"' ∨ c = '\\' then ['\\', c]
  else if isPrint c then [c]
  else
    match c.toNat with
    | 7 => ['\\', 'a']
    | 8 => ['\\', 'b']
    | 12 => ['\\', 'f']
    | 10 => ['\\', 'n']
    | 13 => ['\\', 'r']
    | 9 => ['\\', 't']
    | 11 => ['\\', 'v']
    | n =>
      if n < 32 ∨ n = 127 then '\\' :: 'x' :: hexDigits 2 n
      else if n < 65536 then '\\' :: 'u' :: hexDigits 4 n
      else '\\' :: 'U' :: hexDigits 8 n

def quote (s : List Char) : List Char := '"' :: s.flatMap (quoteRune isPrint) ++ ['"']

def fields (evt : Event) : List (List Char × List Char) :=
  [("tenant_id", evt.tenantID), ("actor_id", evt.actorID), ("actor_type", evt.actorType),
    ("actor_ip", evt.actorIP), ("resource", evt.resource), ("outcome", evt.outcome),
    ("event_id", evt.id)].map fun p => (p.1.toList, p.2.toList)

def renderParam (p : List Char × List Char) : List Char :=
  ' ' :: p.1 ++ '=' :: quote isPrint (escapeSDValue p.2)

def sdID : List Char := "oci-janus@53430".toList

def structuredData (evt : Event) : List Char :=
  '[' :: sdID ++ (fields evt).flatMap (renderParam isPrint) ++ [']']

def renderSyslog (evt : Event) : String :=
  let pri := 13 * 8 + if evt.outcome = "success" then 6 else 4
  "<" ++ toString pri ++ ">1 " ++ evt.occurredAt ++ " registry-audit oci-janus - " ++ evt.action ++
    " " ++ String.ofList (structuredData isPrint evt) ++ " -"

end

/-- The rest of a quoted value: only the reserved characters are escaped, and a bracket must be. -/
def parseValue : List Char → Option (List Char × List Char)
  | [] => none
  | '"' :: r => some ([], r)
  | ']' :: _ => none
  | ['\\'] => none
  | '\\' :: c :: r =>
    if reserved c then (parseValue r).map fun p => (c :: p.1, p.2)
    else (parseValue (c :: r)).map fun p => ('\\' :: p.1, p.2)
  | c :: r => (parseValue r).map fun p => (c :: p.1, p.2)

def isNameChar (c : Char) : Bool := !(c == '=' || c == ' ' || c == ']' || c == '"')

def parseParams : Nat → List Char → Option (List (List Char × List Char) × List Char)
  | _, ']' :: r => some ([], r)
  | fuel + 1, ' ' :: r =>
    match r.dropWhile isNameChar with
    | '=' :: '"' :: r' => do
      let (value, r') ← parseValue r'
      let (params, r') ← parseParams fuel r'
      return ((r.takeWhile isNameChar, value) :: params, r')
    | _ => none
  | _, _ => none

structure SDElement where
  id : List Char
  params : List (List Char × List Char)
  deriving DecidableEq

def parseElements : Nat → List Char → Option (List SDElement)
  | fuel + 1, '[' :: r => do
    let (params, rest) ← parseParams fuel (r.dropWhile isNameChar)
    let more ← match rest with
      | [] | ' ' :: _ => some []
      | _ => parseElements fuel rest
    return ⟨r.takeWhile isNameChar, params⟩ :: more
  | _, _ => none

def skipFields : Nat → List Char → List Char
  | 0, cs => cs
  | n + 1, cs => skipFields n (cs.dropWhile (· ≠ ' ')).tail

/-- The structured data of a line stands behind the six fields of the header. -/
def parseStructuredData (line : String) : Option (List SDElement) :=
  parseElements line.toList.length (skipFields 6 line.toList)

variable {isPrint : Char → Bool}

abbrev Plain (isPrint : Char → Bool) (s : List Char) : Prop :=
  ∀ c ∈ s, isPrint c = true ∧ reserved c = false

/-- What a reader makes of one character, if the two escapes let it read on. -/
def readRune (isPrint : Char → Bool) (c : Char) : Option (List Char) :=
  if c = ']' then if isPrint ']' then none else some ('\\' :: quoteRune isPrint ']')
  else if reserved c then some ['\\', c]
  else some (quoteRune isPrint c)

def readValue (isPrint : Char → Bool) : List Char → Option (List Char)
  | [] => some []
  | c :: s => do return (← readRune isPrint c) ++ (← readValue isPrint s)

theorem ne_of_plain {c : Char} (h : reserved c = false) : c ≠ '\\' ∧ c ≠ '"' ∧ c ≠ ']' := by
  simpa [reserved, and_assoc] using h

theorem parseValue_append {t : List Char} (h : ∀ c ∈ t, reserved c = false) (r : List Char) :
    parseValue (t ++ r) = (parseValue r).map fun p => (t ++ p.1, p.2) := by
  induction t with
  | nil => simp
  | cons c t ih =>
    rw [forall_mem_cons] at h
    obtain ⟨hslash, hquote, hbracket⟩ := ne_of_plain h.1
    have hrest := ih h.2
    rw [cons_append, parseValue.eq_def]
    split <;> simp_all [Option.map_map, Function.comp_def]

theorem hexDigits_plain (width n : Nat) : ∀ c ∈ hexDigits width n, reserved c = false := by
  have hdigit : ∀ d < 16, reserved (Nat.digitChar d) = false := by decide
  induction width generalizing n with
  | zero => simp [hexDigits]
  | succ width ih =>
    intro c hc
    rcases mem_append.mp hc with hold | hnew
    · exact ih _ c hold
    · rw [mem_singleton.mp hnew]
      exact hdigit _ (Nat.mod_lt _ (by decide))

/-- A character that is not printable becomes a backslash and text. -/
theorem quoteRune_escape {c : Char} (hc : c ≠ '"' ∧ c ≠ '\\') (hprint : isPrint c = false) :
    ∃ d t, quoteRune isPrint c = '\\' :: d :: t ∧ ∀ x ∈ d :: t, reserved x = false := by
  have hhex := hexDigits_plain
  unfold quoteRune
  rw [if_neg (by simp [hc]), if_neg (by simp [hprint])]
  split
  all_goals first
    | exact ⟨_, [], rfl, forall_mem_singleton.mpr rfl⟩
    | split_ifs <;> exact ⟨_, _, rfl, forall_mem_cons.mpr ⟨by decide, hhex _ _⟩⟩

theorem parseValue_quoteRune {c : Char} (hc : c ≠ '"' ∧ c ≠ '\\')
    (h : isPrint c = true → reserved c = false) (r : List Char) :
    parseValue (quoteRune isPrint c ++ r) =
      (parseValue r).map fun p => (quoteRune isPrint c ++ p.1, p.2) := by
  cases hprint : isPrint c with
  | true =>
    have hself : quoteRune isPrint c = [c] := by simp [quoteRune, hc, hprint]
    rw [hself]
    exact parseValue_append (by simpa using h hprint) r
  | false =>
    obtain ⟨d, t, heq, hplain⟩ := quoteRune_escape hc hprint
    have hrest := parseValue_append hplain r
    rw [heq]
    simp only [cons_append] at hrest ⊢
    rw [parseValue, if_neg (by simp [hplain d]), hrest, Option.map_map]
    rfl

theorem parseValue_rune (c : Char) (r : List Char) :
    parseValue ((escapeSDValue [c]).flatMap (quoteRune isPrint) ++ r) =
      (readRune isPrint c).bind fun t => (parseValue r).map fun p => (t ++ p.1, p.2) := by
  have hslash : quoteRune isPrint '\\' = ['\\', '\\'] := rfl
  have hpair : ∀ r, parseValue ('\\' :: '\\' :: r) = (parseValue r).map fun p =>
      ('\\' :: p.1, p.2) := fun r => by simp [parseValue, reserved]
  by_cases hbracket : c = ']'
  · subst hbracket
    have hescape : escapeSDValue [']'] = ['\\', ']'] := rfl
    cases hprint : isPrint ']' with
    | true =>
      have hself : quoteRune isPrint ']' = [']'] := by simp [quoteRune, hprint]
      simp [hescape, hslash, hself, hpair, readRune, hprint, parseValue]
    | false =>
      have hread := parseValue_quoteRune (c := ']') (by decide)
        (fun h => absurd (hprint.symm.trans h) nofun) r
      simp [hescape, hslash, hpair, readRune, hprint, hread, Option.map_map, Function.comp_def]
  · by_cases hres : reserved c = true
    · have hescape : escapeSDValue [c] = ['\\', c] := by simp [escapeSDValue, hres]
      have hc : c = '\\' ∨ c = '"' := by simpa [reserved, hbracket] using hres
      have hquote : quoteRune isPrint c = ['\\', c] := by
        rcases hc with rfl | rfl <;> rfl
      have hlast : parseValue ('\\' :: c :: r) = (parseValue r).map fun p => (c :: p.1, p.2) := by
        rcases hc with rfl | rfl <;> simp [parseValue, reserved]
      simp [hescape, hslash, hquote, hpair, hlast, readRune, hbracket, hres, Option.map_map,
        Function.comp_def]
    · rw [Bool.not_eq_true] at hres
      obtain ⟨hne, hne', -⟩ := ne_of_plain hres
      simpa [escapeSDValue, hres, readRune, hbracket] using
        parseValue_quoteRune ⟨hne', hne⟩ (fun _ => hres) r

theorem parseValue_escape (s r : List Char) :
    parseValue ((escapeSDValue s).flatMap (quoteRune isPrint) ++ '"' :: r) =
      (readValue isPrint s).map (·, r) := by
  induction s with
  | nil => rfl
  | cons c s ih =>
    have htext : (escapeSDValue (c :: s)).flatMap (quoteRune isPrint) =
        (escapeSDValue [c]).flatMap (quoteRune isPrint) ++
          (escapeSDValue s).flatMap (quoteRune isPrint) := by
      simp [escapeSDValue]
    rw [htext, append_assoc, parseValue_rune, ih, readValue]
    cases readRune isPrint c <;> cases readValue isPrint s <;> rfl

/-- Only plain text is read back as it was; a character that is not becomes longer. -/
theorem length_of_readRune {c : Char} {t : List Char} (h : readRune isPrint c = some t) :
    t = [c] ∧ isPrint c = true ∧ reserved c = false ∨ 1 < t.length := by
  unfold readRune at h
  split_ifs at h with hbracket hprint hres
  · cases h
    exact Or.inr (by simp [quoteRune, hprint])
  · cases h
    exact Or.inr (by simp)
  · cases h
    rw [Bool.not_eq_true] at hres
    obtain ⟨hne, hne', -⟩ := ne_of_plain hres
    cases hprint : isPrint c with
    | true => exact Or.inl ⟨by simp [quoteRune, hne, hne', hprint], rfl, hres⟩
    | false =>
      obtain ⟨d, t, heq, -⟩ := quoteRune_escape ⟨hne', hne⟩ hprint
      exact Or.inr (by simp [heq])

theorem length_of_readValue {s v : List Char} (h : readValue isPrint s = some v) :
    s.length ≤ v.length ∧ (v.length = s.length → Plain isPrint s) := by
  induction s generalizing v with
  | nil => exact ⟨Nat.zero_le _, fun _ => by simp [Plain]⟩
  | cons c s ih =>
    rw [readValue] at h
    cases hc : readRune isPrint c with
    | none => simp [hc] at h
    | some t =>
      cases hs : readValue isPrint s with
      | none => simp [hc, hs] at h
      | some ts =>
        obtain rfl : t ++ ts = v := by simpa [hc, hs] using h
        obtain ⟨hle, hplain⟩ := ih hs
        rw [length_append, length_cons, Plain, forall_mem_cons]
        rcases length_of_readRune hc with ⟨rfl, hprint, hres⟩ | hlong
        · rw [length_singleton]
          exact ⟨by omega, fun heq => ⟨⟨hprint, hres⟩, hplain (by omega)⟩⟩
        · exact ⟨by omega, fun heq => by omega⟩

theorem readValue_eq_self_iff {s : List Char} :
    readValue isPrint s = some s ↔ Plain isPrint s := by
  constructor
  · exact fun h => (length_of_readValue h).2 rfl
  · intro h
    induction s with
    | nil => rfl
    | cons c s ih =>
      rw [Plain, forall_mem_cons] at h
      obtain ⟨hslash, hquote, hbracket⟩ := ne_of_plain h.1.2
      have hc : readRune isPrint c = some [c] := by
        simp [readRune, hbracket, h.1.2, quoteRune, hslash, hquote, h.1.1]
      simp [readValue, hc, ih h.2]

def readParams (isPrint : Char → Bool) :
    List (List Char × List Char) → Option (List (List Char × List Char))
  | [] => some []
  | p :: params => do return (p.1, ← readValue isPrint p.2) :: (← readParams isPrint params)

theorem readParams_eq_self_iff {params : List (List Char × List Char)} :
    readParams isPrint params = some params ↔ ∀ p ∈ params, Plain isPrint p.2 := by
  simp only [← readValue_eq_self_iff]
  induction params with
  | nil => simp [readParams]
  | cons p params ih =>
    rw [readParams, forall_mem_cons, ← ih]
    cases readValue isPrint p.2 <;> cases readParams isPrint params <;> simp [Prod.ext_iff]

theorem parseParams_render (isPrint : Char → Bool) (params : List (List Char × List Char))
    (fuel : Nat) (hfuel : params.length ≤ fuel) (r : List Char)
    (h : ∀ p ∈ params, ∀ c ∈ p.1, isNameChar c = true) :
    parseParams fuel (params.flatMap (renderParam isPrint) ++ ']' :: r) =
      (readParams isPrint params).map (·, r) := by
  induction params generalizing fuel with
  | nil => cases fuel <;> rfl
  | cons p params ih =>
    rw [forall_mem_cons] at h
    obtain ⟨hname, hparams⟩ := h
    obtain ⟨fuel, rfl⟩ : ∃ k, fuel = k + 1 := ⟨fuel - 1, by simp at hfuel; omega⟩
    have hrest := ih fuel (by simpa using hfuel) hparams
    have htext : (p :: params).flatMap (renderParam isPrint) ++ ']' :: r = ' ' :: (p.1 ++
        '=' :: '"' :: ((escapeSDValue p.2).flatMap (quoteRune isPrint) ++
          '"' :: (params.flatMap (renderParam isPrint) ++ ']' :: r))) := by
      simp [renderParam, quote]
    have heq : isNameChar '=' = false := by decide
    rw [htext, parseParams, readParams]
    cases hv : readValue isPrint p.2 <;> cases hps : readParams isPrint params <;>
      simp [dropWhile_append_of_pos hname, takeWhile_append_of_pos hname, heq,
        parseValue_escape, hrest, hv, hps]

theorem isNameChar_fields (evt : Event) : ∀ p ∈ fields evt, ∀ c ∈ p.1, isNameChar c = true := by
  simp only [fields, map_cons, map_nil, forall_mem_cons]
  refine ⟨?_, ?_, ?_, ?_, ?_, ?_, ?_, by simp⟩ <;> exact all_eq_true.mp (by decide)

theorem skipFields_cons (n : Nat) {field : List Char} (h : ' ' ∉ field) (r : List Char) :
    skipFields (n + 1) (field ++ ' ' :: r) = skipFields n r := by
  have hfield : ∀ c ∈ field, decide (c ≠ ' ') = true := fun c hc => by
    simpa using fun heq : c = ' ' => h (heq ▸ hc)
  rw [skipFields, dropWhile_append_of_pos hfield]
  simp

/-- **When the values are read back**: when they are plain text. -/
theorem syslog_reads_back_iff (isPrint : Char → Bool) (evt : Event)
    (hheader : ' ' ∉ evt.occurredAt.toList ∧ ' ' ∉ evt.action.toList) :
    parseStructuredData (renderSyslog isPrint evt) = some [⟨sdID, fields evt⟩] ↔
      ∀ p ∈ fields evt, Plain isPrint p.2 := by
  have hid : ∀ c ∈ sdID, isNameChar c = true := all_eq_true.mp (by decide)
  have hspace : isNameChar ' ' = false := by decide
  obtain ⟨rest, hrest⟩ : ∃ rest, (fields evt).flatMap (renderParam isPrint) ++ ']' :: " -".toList =
      ' ' :: rest := ⟨_, rfl⟩
  have hpri : ' ' ∉ ("<" ++ toString (13 * 8 + if evt.outcome = "success" then 6 else 4) ++
      ">1").toList := by
    split_ifs <;> decide
  have htext : ∃ pri, ' ' ∉ pri ∧ (renderSyslog isPrint evt).toList = pri ++ ' ' ::
      (evt.occurredAt.toList ++ ' ' :: ("registry-audit".toList ++ ' ' :: ("oci-janus".toList ++
        ' ' :: ("-".toList ++ ' ' :: (evt.action.toList ++ ' ' ::
          ('[' :: (sdID ++ ' ' :: rest))))))) := by
    refine ⟨_, hpri, ?_⟩
    simp [renderSyslog, structuredData, ← hrest]
  obtain ⟨pri, hpri, htext⟩ := htext
  have hskip : skipFields 6 (renderSyslog isPrint evt).toList = '[' :: (sdID ++ ' ' :: rest) := by
    rw [htext, skipFields_cons 5 hpri, skipFields_cons 4 hheader.1, skipFields_cons 3 (by decide),
      skipFields_cons 2 (by decide), skipFields_cons 1 (by decide), skipFields_cons 0 hheader.2]
    rfl
  obtain ⟨fuel, hlen⟩ : ∃ fuel, (renderSyslog isPrint evt).toList.length = fuel + 8 := by
    refine ⟨(renderSyslog isPrint evt).toList.length - 8, ?_⟩
    rw [htext]
    simp [show sdID.length = 15 by decide]
    omega
  have hparams := parseParams_render isPrint (fields evt) (fuel + 7)
    (Nat.le_add_left ..) " -".toList
    (isNameChar_fields evt)
  rw [hrest] at hparams
  rw [parseStructuredData, hskip, hlen, parseElements, dropWhile_append_of_pos hid,
    takeWhile_append_of_pos hid, dropWhile_cons_of_neg (by simp [hspace]), hparams,
    ← readParams_eq_self_iff]
  cases readParams isPrint (fields evt) <;> simp [hspace]

def sampleEvent (actorID : String) : Event :=
  ⟨"e", "t", actorID, "user", "10.0.0.1", "push", "org/app", "success", "2026-01-01T00:00:00.000Z"⟩

def ascii (c : Char) : Bool := ' ' ≤ c && c ≤ '~'

theorem plain_event_reads_back :
    parseStructuredData (renderSyslog ascii (sampleEvent "ann")) =
      some [⟨sdID, fields (sampleEvent "ann")⟩] := by
  have hplain : (fields (sampleEvent "ann")).all (fun p => p.2.all fun c =>
      ascii c && !reserved c) = true := by decide
  exact (syslog_reads_back_iff ascii (sampleEvent "ann") (by decide)).mpr
    (by simpa [all_eq_true] using hplain)

theorem quote_reads_back_escaped :
    parseStructuredData (renderSyslog ascii (sampleEvent "a\"b")) =
      some [⟨sdID, fields (sampleEvent "a\\\"b")⟩] := by
  decide +kernel

end OciJanus.Audit.SyslogExport
