import OciJanus.Verified.GoStrings

/-!
# Bearer challenges

Two machines over the text of a header have to agree: the splitter, which must not see a comma
inside a quoted value, and the unescaper.
-/

namespace OciJanus.Proxy.Challenge

open Verified.GoStrings List

/-- The loop of `splitCommaRespectingQuotes`, from `inQuote` and `buf` on. -/
def splitFrom : Bool → List Char → List Char → List (List Char)
  | _, buf, [] => if buf = [] then [] else [buf]
  -- an escape sequence is kept as it is
  | true, buf, '\\' :: d :: rest => splitFrom true (buf ++ ['\\', d]) rest
  | inQuote, buf, c :: rest =>
    if c = '"' then splitFrom (!inQuote) (buf ++ [c]) rest
    else if c = ',' ∧ inQuote = false then buf :: splitFrom inQuote [] rest
    else splitFrom inQuote (buf ++ [c]) rest

def splitCommaRespectingQuotes (s : String) : List String :=
  (splitFrom false [] s.toList).map String.ofList

def unescapeLoop : List Char → List Char
  | '\\' :: d :: rest => d :: unescapeLoop rest
  | c :: rest => c :: unescapeLoop rest
  | [] => []

def unescapeQuoted (s : List Char) : List Char := if '\\' ∈ s then unescapeLoop s else s

/-- One layer of quotes is taken off; a value without is left alone. -/
def unquote (val : String) : String :=
  let cs := val.toList
  if 2 ≤ cs.length ∧ cs.head? = some '"' ∧ cs.getLast? = some '"' then
    String.ofList (unescapeQuoted (cs.drop 1).dropLast)
  else val

/-- The loop body of `parseBearerChallenge`; a later segment of a key wins. -/
def addSegment (params : String → Option String) (segment : String) : String → Option String :=
  match cut '=' (trimSpace segment) with
  | none => params
  | some (key, val) =>
    if trimSpace key ≠ "" then
      fun k => if k = trimSpace key then some (unquote (trimSpace val)) else params k
    else params

def parseBearerChallenge (header : String) : String → Option String :=
  (splitCommaRespectingQuotes (trimPrefix header "Bearer ")).foldl addSegment fun _ => none

def escape (v : String) : List Char :=
  v.toList.flatMap fun c => if c = '"' ∨ c = '\\' then ['\\', c] else [c]

def pair (kv : String × String) : List Char :=
  kv.1.toList ++ '=' :: '"' :: (escape kv.2 ++ ['"'])

def challenge (kvs : List (String × String)) : String :=
  "Bearer " ++ String.ofList ([','].intercalate (kvs.map pair))

def tokenChars : List Char :=
  "!#$%&'*+-.^_`|~0123456789abcdefghijklmnopqrstuvwxyzABCDEFGHIJKLMNOPQRSTUVWXYZ".toList

/-- A non-empty `token` of RFC 7230. -/
def IsToken (key : String) : Prop := key ≠ "" ∧ (key.toList.all (· ∈ tokenChars)) = true
  deriving Decidable

variable {key : String} {kv : String × String} {kvs : List (String × String)}

theorem IsToken.plain (h : IsToken key) {c : Char} (hc : c ∈ key.toList) :
    isSpace c = false ∧ c ≠ '=' ∧ c ≠ '"' ∧ c ≠ ',' := by
  have hmem : c ∈ tokenChars := by simpa using all_eq_true.mp h.2 c hc
  have hall : (tokenChars.all fun c => !isSpace c && c != '=' && c != '"' && c != ',') = true := by
    decide
  simpa [and_assoc] using all_eq_true.mp hall c hmem

theorem splitFrom_key (buf : List Char) {k : List Char} (h : ∀ c ∈ k, c ≠ '"' ∧ c ≠ ',')
    (rest : List Char) : splitFrom false buf (k ++ rest) = splitFrom false (buf ++ k) rest := by
  induction k generalizing buf with
  | nil => simp
  | cons c k ih =>
    obtain ⟨hquote, hcomma⟩ := h c (by simp)
    rw [cons_append, splitFrom.eq_def]
    simp only [hquote, hcomma, if_false, false_and]
    rw [ih _ fun d hd => h d (mem_cons_of_mem c hd)]
    simp

theorem splitFrom_escape (buf : List Char) (v : String) (rest : List Char) :
    splitFrom true buf (escape v ++ rest) = splitFrom true (buf ++ escape v) rest := by
  unfold escape
  induction v.toList generalizing buf with
  | nil => simp
  | cons c v ih =>
    rw [flatMap_cons, append_assoc]
    by_cases hc : c = '"' ∨ c = '\\'
    · rw [if_pos hc]
      rw [cons_append, singleton_append, splitFrom, ih, append_assoc]
    · rw [if_neg hc]
      obtain ⟨hquote, hslash⟩ := not_or.mp hc
      rw [singleton_append, splitFrom]
      · simp [hquote, ih]
      · simp [hslash]

theorem splitFrom_quote (q : Bool) (buf rest : List Char) :
    splitFrom q buf ('"' :: rest) = splitFrom (!q) (buf ++ ['"']) rest := by
  cases q <;> rw [splitFrom] <;> simp

theorem splitFrom_pair (h : IsToken kv.1) (rest : List Char) :
    splitFrom false [] (pair kv ++ rest) = splitFrom false (pair kv) rest := by
  have hkey : ∀ c ∈ kv.1.toList ++ ['='], c ≠ '"' ∧ c ≠ ',' := by
    intro c hc
    rcases mem_append.mp hc with hc | hc
    · exact (h.plain hc).2.2
    · obtain rfl := mem_singleton.mp hc
      decide
  have hpair : pair kv = (kv.1.toList ++ ['=']) ++ '"' :: (escape kv.2 ++ ['"']) := by simp [pair]
  rw [hpair, append_assoc, splitFrom_key [] hkey, cons_append, splitFrom_quote,
    append_assoc (escape kv.2), Bool.not_false, splitFrom_escape, singleton_append,
    splitFrom_quote]
  simp

theorem splitFrom_pairs (h : ∀ kv ∈ kvs, IsToken kv.1) :
    splitFrom false [] ([','].intercalate (kvs.map pair)) = kvs.map pair := by
  induction kvs with
  | nil => rfl
  | cons kv kvs ih =>
    have hne : pair kv ≠ [] := by simp [pair]
    have hkv := splitFrom_pair (h kv (by simp))
    cases kvs with
    | nil =>
      have hone := hkv []
      rw [append_nil] at hone
      simp [List.intercalate, hone, splitFrom, hne]
    | cons kv' kvs =>
      have hrest := ih fun x hx => h x (mem_cons_of_mem kv hx)
      rw [map_cons, map_cons, intercalate_cons_cons, append_assoc, hkv,
        singleton_append, splitFrom, ← map_cons, hrest]
      · simp
      · simp

theorem unescapeLoop_escape (v : String) : unescapeLoop (escape v) = v.toList := by
  unfold escape
  induction v.toList with
  | nil => rfl
  | cons c v ih =>
    rw [flatMap_cons]
    by_cases hc : c = '"' ∨ c = '\\'
    · rw [if_pos hc, cons_append, singleton_append, unescapeLoop, ih]
    · rw [if_neg hc, singleton_append, unescapeLoop, ih]
      exact fun _ _ hslash => absurd hslash (not_or.mp hc).2

theorem unescapeLoop_eq_self {s : List Char} (h : '\\' ∉ s) : unescapeLoop s = s := by
  induction s with
  | nil => rfl
  | cons c s ih =>
    rw [unescapeLoop, ih fun hs => h (mem_cons_of_mem c hs)]
    rintro _ _ rfl
    simp at h

theorem unquote_escape (v : String) :
    unquote (String.ofList ('"' :: (escape v ++ ['"']))) = v := by
  have hunescape : unescapeQuoted (escape v) = v.toList := by
    unfold unescapeQuoted
    split_ifs with h
    · exact unescapeLoop_escape v
    · rw [← unescapeLoop_eq_self h, unescapeLoop_escape]
  simp [unquote, hunescape, List.getLast?_cons]

theorem trimSpace_of_ends {cs : List Char} (hhead : ∀ c ∈ cs.head?, isSpace c = false)
    (hlast : ∀ c ∈ cs.getLast?, isSpace c = false) :
    trimSpace (String.ofList cs) = String.ofList cs := by
  rw [trimSpace, String.toList_ofList, trim_of_ends hhead hlast]

theorem trimSpace_quoted {c : Char} (hc : isSpace c = false) (cs : List Char) :
    trimSpace (String.ofList (c :: (cs ++ ['"']))) = String.ofList (c :: (cs ++ ['"'])) := by
  apply trimSpace_of_ends
  · rintro d ⟨⟩
    exact hc
  · intro d hd
    rw [← cons_append, List.getLast?_append] at hd
    cases hd
    rfl

theorem addSegment_pair (params : String → Option String) (h : IsToken kv.1) :
    addSegment params (String.ofList (pair kv)) =
      fun k => if k = kv.1 then some kv.2 else params k := by
  have hplain : ∀ c ∈ kv.1.toList, isSpace c = false := fun c hc => (h.plain hc).1
  have hsegment : trimSpace (String.ofList (pair kv)) = String.ofList (pair kv) := by
    obtain ⟨c, cs, hkey⟩ := exists_cons_of_ne_nil (String.toList_eq_nil_iff.not.mpr h.1)
    have hpair : pair kv = c :: ((cs ++ '=' :: '"' :: escape kv.2) ++ ['"']) := by
      simp [pair, hkey]
    rw [hpair, trimSpace_quoted (hplain c (by simp [hkey]))]
  have hcut := cut_append (c := '=') (b := '"' :: (escape kv.2 ++ ['"']))
    fun heq => (h.plain heq).2.1 rfl
  have htrim := trimSpace_of_ends (fun d hd => hplain d (mem_of_mem_head? hd))
    fun d hd => hplain d (mem_of_mem_getLast? hd)
  rw [String.ofList_toList] at htrim
  unfold addSegment
  rw [hsegment, pair, hcut]
  simp only [String.ofList_toList, htrim, trimSpace_quoted (c := '"') rfl, unquote_escape]
  rw [if_pos h.1]

theorem foldl_addSegment (h : ∀ kv ∈ kvs, IsToken kv.1) (hnodup : (kvs.map (·.1)).Nodup)
    (params : String → Option String) (k : String) :
    ((kvs.map pair).map String.ofList).foldl addSegment params k =
      (kvs.lookup k).or (params k) := by
  induction kvs generalizing params with
  | nil => rfl
  | cons kv kvs ih =>
    rw [map_cons, nodup_cons] at hnodup
    rw [map_cons, map_cons, foldl_cons, addSegment_pair params (h kv (by simp)),
      ih (fun x hx => h x (mem_cons_of_mem kv hx)) hnodup.2, lookup_cons]
    by_cases hk : k = kv.1
    · have hnone : kvs.lookup k = none := by
        rw [lookup_eq_none_iff]
        intro x hx
        have hne : kv.1 ≠ x.1 := fun heq => hnodup.1 (mem_map.mpr ⟨x, hx, heq.symm⟩)
        simpa [hk] using hne
      simp [hk ▸ hnone, hk]
    · have hbeq : (k == kv.1) = false := beq_false_of_ne hk
      simp [hk, hbeq]

/-- **A challenge is read as it was written**, whatever the values hold. -/
theorem challenge_round_trip (kvs : List (String × String)) (hkeys : ∀ kv ∈ kvs, IsToken kv.1)
    (hnodup : (kvs.map (·.1)).Nodup) (k : String) :
    parseBearerChallenge (challenge kvs) k = kvs.lookup k := by
  rw [parseBearerChallenge, challenge, trimPrefix_append, splitCommaRespectingQuotes,
    String.toList_ofList, splitFrom_pairs hkeys, foldl_addSegment hkeys hnodup, Option.or_none]

theorem challenge_with_commas :
    let kvs := [("realm", "https://r/t?a=\"b\",c\\"), ("scope", "repository:a,b:pull")]
    (∀ kv ∈ kvs, IsToken kv.1) ∧
      parseBearerChallenge (challenge kvs) "scope" = some "repository:a,b:pull" := by
  intro kvs
  have hkeys : ∀ kv ∈ kvs, IsToken kv.1 := by
    intro kv hkv
    rcases mem_pair.mp hkv with rfl | rfl <;> decide
  exact ⟨hkeys, challenge_round_trip kvs hkeys (by decide) "scope"⟩

theorem splitFrom_intercalate (inQuote : Bool) (buf cs : List Char) :
    [','].intercalate (splitFrom inQuote buf cs) = buf ++ cs ∨
      [','].intercalate (splitFrom inQuote buf cs) ++ [','] = buf ++ cs := by
  fun_induction splitFrom inQuote buf cs with
  | case1 => exact .inl rfl
  | case2 => simp [intercalate]
  | case3 _ _ _ ih | case4 _ _ _ _ ih | case6 _ _ _ _ _ _ _ ih => simpa using ih
  | case5 inQuote buf c rest hesc hq hc ih =>
    obtain ⟨rfl, rfl⟩ := hc
    cases hs : splitFrom false [] rest with
    | nil =>
      rw [hs] at ih
      rcases ih with rfl | rfl
      · exact .inr (by simp [intercalate])
      · simp [splitFrom] at hs
    | cons seg segs =>
      rw [hs] at ih
      simpa [intercalate] using ih

/-- **Splitting loses nothing** but a comma at the end of the text. -/
theorem segments_join (s : String) :
    ",".intercalate (splitCommaRespectingQuotes s) = s ∨
      ",".intercalate (splitCommaRespectingQuotes s) ++ "," = s := by
  have hjoin := splitFrom_intercalate false [] s.toList
  rw [← String.toList_inj, ← String.toList_inj]
  simpa [splitCommaRespectingQuotes, Function.comp_def] using hjoin

end OciJanus.Proxy.Challenge
