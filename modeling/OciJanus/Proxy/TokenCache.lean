import OciJanus.Core.Bearer
import OciJanus.Verified.GoStrings
import OciJanus.Verified.JsonRead

/-!
# The token cache core and proxy share

Under `jwt:valid:<jti>` core writes JSON and proxy `<user>:<tenant>`; each reads what it finds.
-/

namespace OciJanus.Proxy.TokenCache

open Verified Sha256 Utf8 Json ExpiringStore CompactJwt
open Verified.GoStrings (cut cut_append)
open Verified.Run Auth.Token
open Core.Bearer (BearerError parseJTI responseClaims)

def orOmit (present : Bool) (k : String) (v : Value) (ms : Members) : Members :=
  if present then .cons k v ms else ms

def stringElems : List String → Elems
  | [] => .nil
  | x :: xs => .cons (.str x) (stringElems xs)

def accessMembers (a : RepositoryAccess) : Members :=
  orOmit (a.type ≠ "") "type" (.str a.type) (orOmit (a.name ≠ "") "name" (.str a.name)
      (orOmit (a.actions ≠ []) "actions" (.arr (stringElems a.actions)) .nil))

def accessElems : List RepositoryAccess → Elems
  | [] => .nil
  | a :: as => .cons (.obj (accessMembers a)) (accessElems as)

def claimsRest (c : TokenClaims) : Members :=
  .cons "t" (.str c.tenantID) (orOmit (c.access ≠ []) "a" (.arr (accessElems c.access)) .nil)

def claimsText (c : TokenClaims) : String :=
  String.ofList (writeCanonicalValue (.obj (.cons "u" (.str c.userID) (claimsRest c))))

/-! `json.Unmarshal` into `cachedClaims`. -/

def assignString (current : String) : Value → Option String
  | .str s => some s
  | .null => some current
  | _ => none

def readStrings : Elems → Option (List String)
  | .nil => some []
  | .cons x xs => do
    let s ← assignString "" x
    let ss ← readStrings xs
    return s :: ss

def assignStrings : Value → Option (List String)
  | .null => some []
  | .arr xs => readStrings xs
  | _ => none

def readAccess : RepositoryAccess → Members → Option RepositoryAccess
  | a, .nil => some a
  | a, .cons k v ms =>
    if foldName k = foldName "type" then do
      let s ← assignString a.type v
      readAccess { a with type := s } ms
    else if foldName k = foldName "name" then do
      let s ← assignString a.name v
      readAccess { a with name := s } ms
    else if foldName k = foldName "actions" then do
      let ss ← assignStrings v
      readAccess { a with actions := ss } ms
    else readAccess a ms

def assignAccess : Value → Option RepositoryAccess
  | .null => some ⟨"", "", []⟩
  | .obj ms => readAccess ⟨"", "", []⟩ ms
  | _ => none

def readAccesses : Elems → Option (List RepositoryAccess)
  | .nil => some []
  | .cons x xs => do
    let a ← assignAccess x
    let as ← readAccesses xs
    return a :: as

def assignAccesses : Value → Option (List RepositoryAccess)
  | .null => some []
  | .arr xs => readAccesses xs
  | _ => none

def assignClaims : TokenClaims → List (String × Value) → Option TokenClaims
  | c, [] => some c
  | c, (k, v) :: ms =>
    if foldName k = foldName "u" then do
      let s ← assignString c.userID v
      assignClaims { c with userID := s } ms
    else if foldName k = foldName "t" then do
      let s ← assignString c.tenantID v
      assignClaims { c with tenantID := s } ms
    else if foldName k = foldName "a" then do
      let as ← assignAccesses v
      assignClaims { c with access := as } ms
    else assignClaims c ms

def readClaims (text : String) : Option TokenClaims :=
  (textMembers text.toList).bind (assignClaims ⟨"", "", []⟩)

section RoundTrip

theorem stringElems_textual (xs : List String) : (stringElems xs).textual = true := by
  induction xs with
  | nil => rfl
  | cons x xs ih => simp [stringElems, Elems.textual, Value.textual, ih]

theorem stringElems_height (xs : List String) : (stringElems xs).height = 0 := by
  induction xs with
  | nil => rfl
  | cons x xs ih => simp [stringElems, Elems.height, Value.height, ih]

theorem stringElems_ordered (xs : List String) : (stringElems xs).ordered = stringElems xs := by
  induction xs with
  | nil => rfl
  | cons x xs ih => simp [stringElems, Elems.ordered, Value.ordered, ih]

theorem readStrings_stringElems (xs : List String) : readStrings (stringElems xs) = some xs := by
  induction xs with
  | nil => rfl
  | cons x xs ih => simp [stringElems, readStrings, assignString, ih]

theorem accessMembers_textual (a : RepositoryAccess) : (accessMembers a).textual = true := by
  unfold accessMembers orOmit
  split_ifs <;> simp [Members.textual, Value.textual, stringElems_textual]

theorem accessMembers_height (a : RepositoryAccess) : (accessMembers a).height ≤ 1 := by
  unfold accessMembers orOmit
  split_ifs <;> simp [Members.height, Value.height, stringElems_height]

theorem readAccess_accessMembers (a : RepositoryAccess) :
    readAccess ⟨"", "", []⟩ (accessMembers a).ordered = some a := by
  obtain ⟨type, name, actions⟩ := a
  have hname : ("type" < "name") = False := by decide
  have hactions : ("name" < "actions") = False := by decide
  have htype : ("type" < "actions") = False := by decide
  have hfold : foldName "name" ≠ foldName "type" := by decide
  have hfold' : foldName "actions" ≠ foldName "type" := by decide
  have hfold'' : foldName "actions" ≠ foldName "name" := by decide
  unfold accessMembers orOmit
  by_cases ht : type = "" <;> by_cases hn : name = "" <;> by_cases ha : actions = [] <;>
    simp [ht, hn, ha, Members.ordered, Members.insert, Value.ordered, stringElems_ordered,
      readAccess, assignString, assignStrings, readStrings_stringElems, hname, hactions, htype,
      hfold, hfold', hfold'']

theorem accessElems_textual (as : List RepositoryAccess) : (accessElems as).textual = true := by
  induction as with
  | nil => rfl
  | cons a as ih => simp [accessElems, Elems.textual, Value.textual, accessMembers_textual, ih]

theorem accessElems_height (as : List RepositoryAccess) : (accessElems as).height ≤ 2 := by
  induction as with
  | nil => simp [accessElems, Elems.height]
  | cons a as ih =>
    have ha := accessMembers_height a
    simp only [accessElems, Elems.height, Value.height]
    omega

theorem readAccesses_accessElems (as : List RepositoryAccess) :
    readAccesses (accessElems as).ordered = some as := by
  induction as with
  | nil => rfl
  | cons a as ih =>
    simp [accessElems, Elems.ordered, Value.ordered, readAccesses, assignAccess,
      readAccess_accessMembers, ih]

theorem claimsRest_textual (c : TokenClaims) : (claimsRest c).textual = true := by
  unfold claimsRest orOmit
  split_ifs <;> simp [Members.textual, Value.textual, accessElems_textual]

theorem claimsRest_height (c : TokenClaims) : (claimsRest c).height ≤ 3 := by
  have ha := accessElems_height c.access
  unfold claimsRest orOmit
  split_ifs <;> simp only [Members.height, Value.height] <;> omega

theorem readClaims_claimsText (c : TokenClaims) : readClaims (claimsText c) = some c := by
  have hheight := claimsRest_height c
  have hmembers : textMembers (claimsText c).toList =
      some (Members.cons "u" (.str c.userID) (claimsRest c)).entries := by
    rw [claimsText, String.toList_ofList]
    apply textMembers_write
    · simp [Members.textual, Value.textual, claimsRest_textual]
    · simp only [Members.height, Value.height, maxNestingDepth]
      omega
  have hu : foldName "t" ≠ foldName "u" := by decide
  have ha : foldName "a" ≠ foldName "u" := by decide
  have ha' : foldName "a" ≠ foldName "t" := by decide
  obtain ⟨user, tenant, access⟩ := c
  rw [readClaims, hmembers]
  unfold claimsRest orOmit
  by_cases hnil : access = [] <;>
    simp [hnil, Members.entries, Value.ordered, assignClaims, assignString, assignAccesses,
      readAccesses_accessElems, hu, ha, ha']

end RoundTrip

def isUuidChar (c : Char) : Bool := isDigit c || c == '-' || ('a' ≤ c && c ≤ 'f')

def IsUuid (s : String) : Prop := s.toList.length = 36 ∧ ∀ c ∈ s.toList, isUuidChar c = true

theorem isUuid_iff (s : String) :
    (s.toList.length = 36 ∧ s.toList.all isUuidChar = true) ↔ IsUuid s := by
  rw [IsUuid, List.all_eq_true]

-- over the characters of the text, not over all characters
instance (s : String) : Decidable (IsUuid s) := decidable_of_iff _ (isUuid_iff s)

structure ProxyClaims where
  (userID tenantID : String)

def proxyText (user tenant : String) : String := user ++ ":" ++ tenant

def splitCached (text : String) : Option ProxyClaims :=
  (cut ':' text).map fun p => ⟨p.1, p.2⟩

variable {user : String}

theorem colon_notMem (h : IsUuid user) : ':' ∉ user.toList := by
  intro hmem
  have hchar := h.2 ':' hmem
  revert hchar
  decide

theorem splitCached_proxyText (h : IsUuid user) (tenant : String) :
    splitCached (proxyText user tenant) = some ⟨user, tenant⟩ := by
  have htext : proxyText user tenant = String.ofList (user.toList ++ ':' :: tenant.toList) := by
    apply String.toList_inj.mp
    simp [proxyText, String.toList_append]
  rw [splitCached, htext, cut_append (colon_notMem h)]
  simp

theorem readClaims_proxyText (h : IsUuid user) (tenant : String) :
    readClaims (proxyText user tenant) = none := by
  obtain ⟨hlen, hchars⟩ := h
  cases huser : user.toList with
  | nil =>
    rw [huser] at hlen
    cases hlen
  | cons c cs =>
    have hc : isUuidChar c = true := hchars c (by simp [huser])
    have hlead : Json.isSpace c = false ∧ c ≠ '{' ∧ c ≠ 'n' := by
      refine ⟨?_, ?_, ?_⟩
      · by_contra hspace
        simp only [Json.isSpace, Bool.or_eq_false_iff, not_and_or, Bool.not_eq_false,
          beq_iff_eq] at hspace
        rcases hspace with ((rfl | rfl) | rfl) | rfl <;> revert hc <;> decide
      · rintro rfl
        revert hc
        decide
      · rintro rfl
        revert hc
        decide
    have htext : (proxyText user tenant).toList = c :: (cs ++ ':' :: tenant.toList) := by
      simp [proxyText, String.toList_append, huser]
    rw [readClaims, htext, textMembers_eq_none hlead.1 hlead.2.1 hlead.2.2]
    rfl

theorem splitCached_claimsText (c : TokenClaims) :
    ∃ tenant, splitCached (claimsText c) = some ⟨"\x7b\"u\"", tenant⟩ := by
  have htext : claimsText c = String.ofList (['{', '"', 'u', '"'] ++ ':' ::
      (quote c.userID ++ writeMembers (claimsRest c))) := rfl
  exact ⟨_, by rw [splitCached, htext, cut_append (by decide), Option.map_some]⟩

structure Issuer where
  answer : Bytes → Option ValidateTokenResponse
  valid : ∀ token resp, answer token = some resp → resp.valid = true
  user_uuid : ∀ token resp, answer token = some resp → IsUuid resp.userID
  jti_unique : ∀ token token' resp resp', answer token = some resp →
    answer token' = some resp' → parseJTI token = parseJTI token' →
    resp.userID = resp'.userID ∧ resp.tenantID = resp'.tenantID

abbrev TextRedis := Store String String

structure World where
  redis : TextRedis
  now : Int

inductive Action where
  | tick (d : Nat)
  | core (token : Bytes)
  | proxy (token : Bytes)

namespace Issuer

variable (iss : Issuer)

def validateToken (now : Int) (token : Bytes) : Except BearerError ValidateTokenResponse :=
  match iss.answer token with
  | some resp => if now < resp.expiresAt then .ok resp else .error .unauthorized
  | none => .error .unauthorized

def validateWith {γ : Type} (read : String → Option γ) (claims : ValidateTokenResponse → γ)
    (text : ValidateTokenResponse → String) (w : World) (token : Bytes) :
    Except BearerError γ × TextRedis :=
  let key := (RedisKey.valid (parseJTI token)).text
  let hit := if parseJTI token = "" then none else (w.redis.get w.now key).bind read
  match hit with
  | some c => (.ok c, w.redis)
  | none =>
    match iss.validateToken w.now token with
    | .error err => (.error err, w.redis)
    | .ok resp =>
      if !resp.valid then (.error .unauthorized, w.redis)
      else if parseJTI token ≠ "" ∧ 0 < resp.expiresAt - w.now then
        (.ok (claims resp), w.redis.set w.now key (text resp) (resp.expiresAt - w.now))
      else (.ok (claims resp), w.redis)

def coreText (resp : ValidateTokenResponse) : String := claimsText (responseClaims resp)

def coreValidateBearer (w : World) (token : Bytes) : Except BearerError TokenClaims × TextRedis :=
  iss.validateWith readClaims responseClaims coreText w token

def proxyValidateBearer (w : World) (token : Bytes) : Except BearerError ProxyClaims × TextRedis :=
  iss.validateWith splitCached (fun resp => ⟨resp.userID, resp.tenantID⟩)
    (fun resp => proxyText resp.userID resp.tenantID) w token

def step (w : World) : Action → World
  | .tick d => { w with now := w.now + d }
  | .core token => { w with redis := (iss.coreValidateBearer w token).2 }
  | .proxy token => { w with redis := (iss.proxyValidateBearer w token).2 }

def LiveToken (w : World) (token : Bytes) : Prop :=
  ∃ resp ∈ iss.answer token, w.now < resp.expiresAt

def Live (w : World) : Action → Prop
  | .tick _ => True
  | .core token => iss.LiveToken w token
  | .proxy token => iss.LiveToken w token

def Answers (w : World) : Action → Prop
  | .tick _ => True
  | .core token => ∃ resp ∈ iss.answer token, ∃ c,
      (iss.coreValidateBearer w token).1 = .ok c ∧ c.userID = resp.userID ∧
        c.tenantID = resp.tenantID
  | .proxy token => ∃ resp ∈ iss.answer token,
      (iss.proxyValidateBearer w token).1 = .ok ⟨resp.userID, resp.tenantID⟩

def OwnRead (w : World) : Action → Prop
  | .proxy token => parseJTI token ≠ "" → ∀ c,
      w.redis.get w.now (RedisKey.valid (parseJTI token)).text ≠ some (claimsText c)
  | _ => True

variable {iss}

def Provenance (iss : Issuer) (w : World) : Prop :=
  ∀ j text, w.redis.get w.now (RedisKey.valid j).text = some text →
    ∃ token resp, iss.answer token = some resp ∧ parseJTI token = j ∧
      (text = coreText resp ∨ text = proxyText resp.userID resp.tenantID)

variable {w : World}

theorem provenance_mono (h : Provenance iss w) (d : Nat) :
    Provenance iss { w with now := w.now + d } := by
  intro j text hget
  exact h j text (Store.get_antitone (by show w.now ≤ w.now + d; omega) hget)

section ValidateWith

variable {γ : Type} {read : String → Option γ} {claims : ValidateTokenResponse → γ}
  {text : ValidateTokenResponse → String} {w : World} {token : Bytes}

theorem validateWith_ok {resp : ValidateTokenResponse} (hresp : iss.answer token = some resp)
    (hlive : w.now < resp.expiresAt) :
    (iss.validateWith read claims text w token).1 = .ok ((if parseJTI token = "" then none
        else (w.redis.get w.now (RedisKey.valid (parseJTI token)).text).bind read).getD
          (claims resp)) := by
  have hrpc : iss.validateToken w.now token = .ok resp := by simp [validateToken, hresp, hlive]
  have hvalid := iss.valid token resp hresp
  unfold validateWith
  simp only [hrpc, hvalid]
  split
  · rename_i c hc
    rw [hc]
    rfl
  · rename_i hc
    rw [hc]
    simp only [Bool.not_true, Bool.false_eq_true, if_false]
    split <;> rfl

theorem validateWith_redis (iss : Issuer) (read : String → Option γ)
    (claims : ValidateTokenResponse → γ) (text : ValidateTokenResponse → String) (w : World)
    (token : Bytes) :
    (iss.validateWith read claims text w token).2 = w.redis ∨
      ∃ resp ttl, iss.answer token = some resp ∧ (iss.validateWith read claims text w token).2 =
          w.redis.set w.now (RedisKey.valid (parseJTI token)).text (text resp) ttl := by
  unfold validateWith
  simp only
  split
  · exact Or.inl rfl
  · cases hrpc : iss.validateToken w.now token with
    | error err => exact Or.inl rfl
    | ok resp =>
      have hresp : iss.answer token = some resp := by
        unfold validateToken at hrpc
        split at hrpc
        · split at hrpc
          · cases hrpc
            assumption
          · cases hrpc
        · cases hrpc
      simp only
      split
      · exact Or.inl rfl
      · split
        · exact Or.inr ⟨resp, _, hresp, rfl⟩
        · exact Or.inl rfl

theorem validateWith_stores {resp : ValidateTokenResponse} (hresp : iss.answer token = some resp)
    (hlive : w.now < resp.expiresAt) (hj : parseJTI token ≠ "")
    (hmiss : (w.redis.get w.now (RedisKey.valid (parseJTI token)).text).bind read = none) :
    (iss.validateWith read claims text w token).2.get w.now
      (RedisKey.valid (parseJTI token)).text = some (text resp) := by
  have hrpc : iss.validateToken w.now token = .ok resp := by simp [validateToken, hresp, hlive]
  have hvalid := iss.valid token resp hresp
  have hset : (iss.validateWith read claims text w token).2 =
      w.redis.set w.now (RedisKey.valid (parseJTI token)).text (text resp)
        (resp.expiresAt - w.now) := by
    unfold validateWith
    simp only [if_neg hj, hmiss, hrpc, hvalid, Bool.not_true, Bool.false_eq_true, if_false]
    rw [if_pos ⟨hj, by omega⟩]
  rw [hset]
  exact Store.get_eq_some_iff.mpr ⟨_, Store.set_entry_self .., by omega⟩

theorem provenance_validateWith (h : Provenance iss w)
    (htext : ∀ resp, text resp = coreText resp ∨ text resp = proxyText resp.userID resp.tenantID) :
    Provenance iss { w with redis := (iss.validateWith read claims text w token).2 } := by
  intro j entry hget
  rcases validateWith_redis iss read claims text w token with
    hsame | ⟨resp, ttl, hresp, hset⟩
  · apply h j entry
    rw [← hsame]
    exact hget
  · simp only [hset] at hget
    rcases Store.get_set_eq_some hget with ⟨hkey, rfl⟩ | hold
    · have hj : RedisKey.valid j = RedisKey.valid (parseJTI token) := RedisKey.text_injective hkey
      cases hj
      exact ⟨token, resp, hresp, rfl, htext resp⟩
    · exact h j entry hold

end ValidateWith

theorem provenance_step (h : Provenance iss w) (a : Action) : Provenance iss (iss.step w a) := by
  cases a with
  | tick d => exact provenance_mono h d
  | core token => exact provenance_validateWith h fun resp => Or.inl rfl
  | proxy token => exact provenance_validateWith h fun resp => Or.inr rfl

variable {token : Bytes}

theorem core_answers (h : Provenance iss w)
    (hlive : iss.LiveToken w token) : iss.Answers w (.core token) := by
  obtain ⟨resp, hresp, hexp⟩ := hlive
  refine ⟨resp, hresp, _, validateWith_ok hresp hexp, ?_⟩
  by_cases hj : parseJTI token = ""
  · simp [hj, responseClaims]
  · rw [if_neg hj]
    cases hget : w.redis.get w.now (RedisKey.valid (parseJTI token)).text with
    | none => exact ⟨rfl, rfl⟩
    | some entry =>
      obtain ⟨token', resp', hresp', hjti, hentry⟩ := h _ _ hget
      have hsame := iss.jti_unique token' token resp' resp hresp' hresp hjti
      rcases hentry with rfl | rfl
      · rw [Option.bind_some, coreText, readClaims_claimsText]
        exact hsame
      · rw [Option.bind_some, readClaims_proxyText (iss.user_uuid token' resp' hresp')]
        exact ⟨rfl, rfl⟩

theorem proxy_answers_iff (h : Provenance iss w) (hlive : iss.LiveToken w token) :
    iss.Answers w (.proxy token) ↔ OwnRead w (.proxy token) := by
  obtain ⟨resp, hresp, hexp⟩ := hlive
  have hok : (iss.proxyValidateBearer w token).1 = _ := validateWith_ok hresp hexp
  have hanswers : iss.Answers w (.proxy token) ↔
      (iss.proxyValidateBearer w token).1 = .ok ⟨resp.userID, resp.tenantID⟩ := by
    constructor
    · rintro ⟨resp', hresp', hok'⟩
      cases hresp.symm.trans hresp'
      exact hok'
    · intro hok'
      exact ⟨resp, hresp, hok'⟩
  rw [hanswers, hok]
  by_cases hj : parseJTI token = ""
  · simp [hj, OwnRead]
  · rw [if_neg hj]
    cases hget : w.redis.get w.now (RedisKey.valid (parseJTI token)).text with
    | none => simp [OwnRead, hget]
    | some entry =>
      obtain ⟨token', resp', hresp', hjti, hentry⟩ := h _ _ hget
      have huuid := iss.user_uuid token' resp' hresp'
      rcases hentry with rfl | rfl
      · -- an entry of core's: the user read from it is not a UUID
        obtain ⟨tenant, hsplit⟩ := splitCached_claimsText (responseClaims resp')
        have hwrong : "\x7b\"u\"" ≠ resp.userID := by
          intro heq
          have hlen := (iss.user_uuid token resp hresp).1
          rw [← heq] at hlen
          revert hlen
          decide
        constructor
        · intro heq
          rw [Option.bind_some, coreText, hsplit] at heq
          exact absurd (congrArg ProxyClaims.userID (Except.ok.inj heq)) hwrong
        · intro hown
          exact absurd hget (hown hj _)
      · obtain ⟨huser, htenant⟩ := iss.jti_unique token' token resp' resp hresp' hresp hjti
        constructor
        · intro _ _ c heq
          rw [hget] at heq
          have hread := readClaims_proxyText huuid resp'.tenantID
          rw [Option.some.inj heq, readClaims_claimsText] at hread
          cases hread
        · intro _
          rw [Option.bind_some, splitCached_proxyText huuid, huser, htenant]
          rfl

/-- **When the two caches agree.** -/
theorem answers_iff_own_reads (iss : Issuer) (now : Int) (acts : List Action)
    (hlive : Guarded iss.step iss.Live ⟨Store.empty, now⟩ acts) :
    Guarded iss.step iss.Answers ⟨Store.empty, now⟩ acts ↔
      Guarded iss.step OwnRead ⟨Store.empty, now⟩ acts := by
  apply guarded_congr_of_invariant (I := Provenance iss) (G := iss.Live) _ _ hlive
  · intro w a hprov ha
    refine ⟨?_, fun _ => provenance_step hprov a⟩
    cases a with
    | tick d => exact Iff.rfl
    | core token => exact iff_of_true (core_answers hprov ha) trivial
    | proxy token => exact proxy_answers_iff hprov ha
  · intro j text hget
    cases hget

theorem proxy_after_core {resp : ValidateTokenResponse}
    (hresp : iss.answer token = some resp) (hlive : w.now < resp.expiresAt)
    (hj : parseJTI token ≠ "")
    (hmiss : w.redis.get w.now (RedisKey.valid (parseJTI token)).text = none) :
    ∃ tenant, (iss.proxyValidateBearer (iss.step w (.core token)) token).1 =
      .ok ⟨"\x7b\"u\"", tenant⟩ := by
  have hget : (iss.step w (.core token)).redis.get w.now (RedisKey.valid (parseJTI token)).text =
      some (claimsText (responseClaims resp)) :=
    validateWith_stores hresp hlive hj (by rw [hmiss]; rfl)
  obtain ⟨tenant, hsplit⟩ := splitCached_claimsText (responseClaims resp)
  have hnow : (iss.step w (.core token)).now = w.now := rfl
  refine ⟨tenant, ?_⟩
  rw [proxyValidateBearer, validateWith_ok hresp (hnow ▸ hlive), if_neg hj, hnow, hget,
    Option.bind_some, hsplit]
  rfl

end Issuer

def samplePayload : Bytes :=
  ["eyJzdWIiOiIwMDAwMDAwMC0wMDAwLTQwMDAtODAwM", "C0wMDAwMDAwMDAwMDEiLCJleHAiOjMwMCwianRpIj",
    "oiMDAwMDAwMDAtMDAwMC00MDAwLTgwMDAtMDAwMDA",
    "wMDAwMDBhIiwidGVuYW50X2lkIjoiMDAwMDAwMDAt",
    "MDAwMC00MDAwLTgwMDAtMDAwMDAwMDAwMDAyIn0"].flatMap stringBytes

def sampleToken : Bytes :=
  compact (stringBytes "eyJhbGciOiJSUzI1NiJ9") samplePayload (stringBytes "c2ln")

def sampleResponse : ValidateTokenResponse where
  valid := true
  userID := "00000000-0000-4000-8000-000000000001"
  tenantID := "00000000-0000-4000-8000-000000000002"
  jti := "00000000-0000-4000-8000-00000000000a"
  access := []
  expiresAt := 300
  roles := []

theorem sampleResponse_valid : sampleResponse.valid = true := rfl

theorem sampleResponse_uuid : IsUuid sampleResponse.userID := by decide +kernel

theorem sample_answer {token : Bytes} {resp : ValidateTokenResponse}
    (h : (if token = sampleToken then some sampleResponse else none) = some resp) :
    sampleResponse = resp := by
  split at h
  · exact Option.some.inj h
  · cases h

def sampleIssuer : Issuer where
  answer token := if token = sampleToken then some sampleResponse else none
  valid _ _ h := sample_answer h ▸ sampleResponse_valid
  user_uuid _ _ h := sample_answer h ▸ sampleResponse_uuid
  jti_unique _ _ _ _ h h' _ := sample_answer h ▸ sample_answer h' ▸ ⟨rfl, rfl⟩

theorem sampleIssuer_answer : sampleIssuer.answer sampleToken = some sampleResponse := by
  simp only [sampleIssuer, if_true]

theorem sampleToken_jti : parseJTI sampleToken ≠ "" := by decide +kernel

theorem sampleToken_live {w : World} (h : w.now < 300) : sampleIssuer.LiveToken w sampleToken :=
  ⟨sampleResponse, sampleIssuer_answer, h⟩

theorem proxy_reads_core_entry :
    Guarded sampleIssuer.step sampleIssuer.Live ⟨Store.empty, 0⟩
        [.core sampleToken, .proxy sampleToken] ∧
      (∃ tenant, (sampleIssuer.proxyValidateBearer
        (sampleIssuer.step ⟨Store.empty, 0⟩ (.core sampleToken)) sampleToken).1 =
          .ok ⟨"\x7b\"u\"", tenant⟩) ∧
      ¬ Guarded sampleIssuer.step sampleIssuer.Answers ⟨Store.empty, 0⟩
        [.core sampleToken, .proxy sampleToken] := by
  obtain ⟨tenant, hread⟩ := Issuer.proxy_after_core (w := ⟨Store.empty, 0⟩) sampleIssuer_answer
    (by decide) sampleToken_jti rfl
  refine ⟨⟨sampleToken_live (by decide), sampleToken_live (by decide), trivial⟩,
    ⟨tenant, hread⟩, ?_⟩
  intro hanswers
  obtain ⟨resp, hresp, hok⟩ := hanswers.2.1
  cases sampleIssuer_answer.symm.trans hresp
  have huser : sampleResponse.userID = "\x7b\"u\"" :=
    congrArg ProxyClaims.userID (Except.ok.inj (hok.symm.trans hread))
  revert huser
  decide

theorem proxy_first_answers :
    Guarded sampleIssuer.step sampleIssuer.Answers ⟨Store.empty, 0⟩
      [.proxy sampleToken, .core sampleToken, .core sampleToken] := by
  have hlive : Guarded sampleIssuer.step sampleIssuer.Live ⟨Store.empty, 0⟩
      [.proxy sampleToken, .core sampleToken, .core sampleToken] :=
    ⟨sampleToken_live (by decide), sampleToken_live (by decide), sampleToken_live (by decide),
      trivial⟩
  apply (Issuer.answers_iff_own_reads sampleIssuer 0 _ hlive).mpr
  refine ⟨?_, trivial, trivial, trivial⟩
  intro _ c hget
  cases hget

end OciJanus.Proxy.TokenCache
