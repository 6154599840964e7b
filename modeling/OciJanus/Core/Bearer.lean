import OciJanus.Auth.Token
import OciJanus.Verified.CompactJwt
import OciJanus.Verified.Run

/-!
# The bearer cache of registry-core

Two services over one Redis; texts are arbitrary bytes, so forged ones are included.
-/

namespace OciJanus.Core.Bearer

open Verified Sha256 Utf8 ExpiringStore CompactJwt Run Auth.Token

def parseJTI (token : Bytes) : String := (payloadString "jti" token).getD ""

inductive BearerError where
  | unauthorized
  | rpc
  deriving DecidableEq

def cached (r : Redis) (now : Int) (jti : String) : Option TokenClaims :=
  if jti = "" then none
  else
    match lookup r now (.valid jti) with
    | some (.claims c) => some c
    | _ => none

def responseClaims (resp : ValidateTokenResponse) : TokenClaims :=
  ⟨resp.userID, resp.tenantID, resp.access⟩

def remember (r : Redis) (now : Int) (jti : String) (resp : ValidateTokenResponse) : Redis :=
  if jti ≠ "" ∧ 0 < resp.expiresAt - now then
    store r now (.valid jti) (.claims (responseClaims resp)) (resp.expiresAt - now)
  else r

section Bearer

variable (verified : Bytes → Option Claims)

def validateSlow (r : Redis) (now : Int) (token : Bytes) : Except BearerError TokenClaims × Redis :=
  match validateTokenRPC verified r now token with
  | .error .unauthenticated => (.error .unauthorized, r)
  | .error .internal => (.error .rpc, r)
  | .ok resp =>
    if resp.valid then
      (.ok (responseClaims resp), remember r now (parseJTI token) resp)
    else (.error .unauthorized, r)

def validateBearer (r : Redis) (now : Int) (token : Bytes) :
    Except BearerError TokenClaims × Redis :=
  match cached r now (parseJTI token) with
  | some c => (.ok c, r)
  | none => validateSlow verified r now token

def Reports (r : Redis) (now : Int) (token : Bytes) (c : TokenClaims) : Prop :=
  ∃ resp, validateTokenRPC verified r now token = .ok resp ∧ resp.valid = true ∧
    responseClaims resp = c

/-- One Redis and one clock for both services. -/
structure World where
  redis : Redis
  now : Int

/-- The calls of registry-core and registry-auth that write to Redis, and the passing of time. -/
inductive Action where
  | tick (d : Nat)
  | validateBearer (token : Bytes)
  | issueToken (userID jti : String)
  | logout (token : Bytes)
  | refreshToken (token : Bytes) (jti : String)
  | changePassword (userID : String)
  | revokeSession (sid : String) (expiresAt : Int)
  | revokePrincipal (id : String)
  | restorePrincipal (id : String)

def logout (r : Redis) (now : Int) (token : Bytes) : Redis :=
  match validateToken verified r now token with
  | .ok c => revokeToken r now c
  | .error _ => r

def refreshed (r : Redis) (now : Int) (token : Bytes) (jti : String) : Redis :=
  match refreshToken verified r now jti token with
  | .ok p => p.2
  | .error _ => r

def step (w : World) : Action → World
  | .tick d => { w with now := w.now + d }
  | .validateBearer t => { w with redis := (validateBearer verified w.redis w.now t).2 }
  | .issueToken u j => { w with redis := recordIssuedJTI w.redis w.now u j }
  | .logout t => { w with redis := logout verified w.redis w.now t }
  | .refreshToken t j => { w with redis := refreshed verified w.redis w.now t j }
  | .changePassword u => { w with redis := revokeAllUserTokens w.redis w.now u }
  | .revokeSession s e => { w with redis := setSessionRevokeGate w.redis w.now s e }
  | .revokePrincipal u => { w with redis := revokePrincipal w.redis w.now u }
  | .restorePrincipal u => { w with redis := restorePrincipal w.redis u }

def initial (t : Int) : World := ⟨Store.empty, t⟩

abbrev after (t : Int) (acts : List Action) : World := run (step verified) (initial t) acts

end Bearer

variable {verified : Bytes → Option Claims}

def tokenClaims (k : Claims) : TokenClaims := ⟨k.subject, k.tenantID, k.access⟩

variable {r : Redis} {now : Int} {token : Bytes} {c : TokenClaims}

theorem reports_iff :
    Reports verified r now token c ↔
      ∃ k, Accepted verified r now token k ∧ k.expiresAt.isSome ∧ tokenClaims k = c := by
  unfold Reports
  constructor
  · rintro ⟨resp, hok, hvalid, rfl⟩
    obtain ⟨k, e, hacc, he, rfl⟩ := validateTokenRPC_ok_iff.mp hok
    exact ⟨k, hacc, by simp [he], rfl⟩
  · rintro ⟨k, hacc, hexp, rfl⟩
    obtain ⟨e, he⟩ := Option.isSome_iff_exists.mp hexp
    exact ⟨_, validateTokenRPC_ok_iff.mpr ⟨k, e, hacc, he, rfl⟩, rfl, rfl⟩

theorem validateSlow_ok_iff :
    (validateSlow verified r now token).1 = .ok c ↔ Reports verified r now token c := by
  unfold validateSlow Reports
  cases hrpc : validateTokenRPC verified r now token with
  | error err => cases err <;> simp
  | ok resp =>
    by_cases hvalid : resp.valid = true
    · simp [hvalid]
    · simp [hvalid]

theorem validateBearer_eq_slow (h : cached r now (parseJTI token) = none) :
    validateBearer verified r now token = validateSlow verified r now token := by
  simp [validateBearer, h]

theorem validateBearer_of_cached (h : cached r now (parseJTI token) = some c) :
    validateBearer verified r now token = (.ok c, r) := by
  simp [validateBearer, h]

/-- The token misses the cache under `jti`, is accepted and leaves this entry there. -/
def Fills (verified : Bytes → Option Claims) (jti : String) (c : TokenClaims) (expiry : Int)
    (w : World) (a : Action) : Prop :=
  ∃ t k, a = .validateBearer t ∧ parseJTI t = jti ∧ jti ≠ "" ∧ cached w.redis w.now jti = none ∧
    Accepted verified w.redis w.now t k ∧ k.expiresAt = some expiry ∧ tokenClaims k = c

section Entry

variable {w : World} {a : Action} {jti : String} {expiry : Int}

theorem Fills.stored (h : Fills verified jti c expiry w a) :
    stored (step verified w a).redis (.valid jti) = some ⟨.claims c, expiry⟩ := by
  obtain ⟨t, k, rfl, rfl, hjti, hmiss, hacc, hexp, rfl⟩ := h
  have hok := validateTokenRPC_ok_iff.mpr ⟨k, expiry, hacc, hexp, rfl⟩
  have hlive : 0 < expiry - w.now := by
    have := hacc.now_lt hexp
    omega
  simp only [step, validateBearer_eq_slow hmiss, validateSlow, hok, remember, if_true]
  rw [if_pos ⟨hjti, hlive⟩, stored_store_self]
  simp [responseClaims, tokenClaims]

theorem revokeAllUserTokens_stored (u : String) :
    stored (revokeAllUserTokens r now u) (.valid jti) = stored r (.valid jti) := by
  have hfold : ∀ (jtis : List String) (r : Redis),
      stored (jtis.foldl (fun r j => store r now (.revoked j) .one tokenTTL) r) (.valid jti) =
        stored r (.valid jti) := by
    intro jtis
    induction jtis with
    | nil => exact fun _ => rfl
    | cons j jtis ih => exact fun r => (ih _).trans (stored_store_ne (by simp))
  unfold revokeAllUserTokens
  split
  · rfl
  · exact (stored_remove_ne (by simp)).trans (hfold _ _)

theorem stored_step (h : ∀ c e, ¬ Fills verified jti c e w a) :
    stored (step verified w a).redis (.valid jti) = stored w.redis (.valid jti) := by
  cases a with
  | tick => rfl
  | validateBearer t =>
    cases hc : cached w.redis w.now (parseJTI t) with
    | some c => rw [step, validateBearer_of_cached hc]
    | none =>
      rw [step, validateBearer_eq_slow hc, validateSlow]
      cases hrpc : validateTokenRPC verified w.redis w.now t with
      | error err => cases err <;> rfl
      | ok resp =>
        obtain ⟨k, e, hacc, he, rfl⟩ := validateTokenRPC_ok_iff.mp hrpc
        simp only [if_true, remember]
        split_ifs with hset
        · refine stored_store_ne fun heq => ?_
          cases heq
          exact h _ e ⟨t, k, rfl, rfl, hset.1, hc, hacc, he, rfl⟩
        · rfl
  | issueToken u j => exact recordIssuedJTI_stored (by simp) u j
  | logout t =>
    simp only [step, logout]
    split
    · exact revokeToken_stored (by simp) _
    · rfl
  | refreshToken t j =>
    simp only [step, refreshed]
    split
    · rename_i p hp
      obtain ⟨k, _, _, hredis⟩ := refreshToken_ok hp
      rw [hredis, revokeToken_stored (by simp), recordIssuedJTI_stored (by simp)]
    · rfl
  | changePassword u => exact revokeAllUserTokens_stored u
  | revokeSession s e => exact setSessionRevokeGate_stored (by simp) s e
  | revokePrincipal u => exact stored_store_ne (by simp)
  | restorePrincipal u => exact stored_remove_ne (by simp)

theorem now_le_run (acts : List Action) (w : World) : w.now ≤ (run (step verified) w acts).now := by
  induction acts generalizing w with
  | nil => exact le_rfl
  | cons a acts ih =>
    refine le_trans ?_ (ih _)
    cases a with
    | tick d => exact Int.le_add_of_nonneg_right (Int.natCast_nonneg d)
    | _ => exact le_rfl

/-- An entry stands as long as it lives: a token with its jti is answered from it. -/
theorem stored_run (hjti : jti ≠ "") (acts : List Action) {w : World}
    (h : stored w.redis (.valid jti) = some ⟨.claims c, expiry⟩)
    (hlive : (run (step verified) w acts).now < expiry) :
    stored (run (step verified) w acts).redis (.valid jti) = some ⟨.claims c, expiry⟩ := by
  induction acts generalizing w with
  | nil => exact h
  | cons a acts ih =>
    refine ih ?_ hlive
    rw [stored_step, h]
    rintro c' e ⟨t, k, rfl, rfl, -, hmiss, -⟩
    have hnow : w.now < expiry := lt_of_le_of_lt (now_le_run (_ :: acts) w) hlive
    simp [cached, hjti, lookup_eq_some_iff.mpr ⟨expiry, h, hnow⟩] at hmiss

theorem cached_eq_some_iff : cached r now jti = some c ↔
    jti ≠ "" ∧ ∃ d, stored r (.valid jti) = some ⟨.claims c, d⟩ ∧ now < d := by
  rw [← lookup_eq_some_iff, cached]
  split_ifs with hjti
  · simp [hjti]
  · split <;> simp_all

/-- The cache at the end of a history holds what the last token to fill it left there. -/
theorem cached_after_iff (start : Int) (acts : List Action) :
    cached (after verified start acts).redis (after verified start acts).now jti = some c ↔
      ∃ soon a rest expiry, acts = soon ++ a :: rest ∧
        Fills verified jti c expiry (after verified start soon) a ∧
        (after verified start acts).now < expiry := by
  rw [cached_eq_some_iff]
  constructor
  · rintro ⟨-, d, hstored, hlive⟩
    have horigin := run_origin (G := fun _ _ => True)
      (P := fun w : World => stored w.redis (.valid jti) = some ⟨.claims c, d⟩)
      (Q := Fills verified jti c d) (fun w a _ hP => ?_) (guarded_of_forall fun _ _ => trivial)
      hstored
    · rcases horigin with hstart | ⟨soon, a, rest, hacts, hfills⟩
      · cases hstart
      · exact ⟨soon, a, rest, d, hacts, hfills, hlive⟩
    · by_cases hfills : ∃ c e, Fills verified jti c e w a
      · obtain ⟨c', e, hfills⟩ := hfills
        cases hfills.stored.symm.trans hP
        exact Or.inr hfills
      · rw [stored_step fun c e h => hfills ⟨c, e, h⟩] at hP
        exact Or.inl hP
  · rintro ⟨soon, a, rest, expiry, rfl, hfills, hlive⟩
    obtain ⟨t, k, -, -, hjti, -⟩ := id hfills
    refine ⟨hjti, expiry, ?_, hlive⟩
    rw [after, run_append, run_cons] at hlive ⊢
    exact stored_run hjti rest hfills.stored hlive

end Entry

/-- Whenever a token has filled the cache under the jti of this one, and has not expired since, this
one is accepted now, and with the same claims. -/
def HistoryAgrees (verified : Bytes → Option Claims) (start : Int) (acts : List Action)
    (token : Bytes) : Prop :=
  ∀ soon a rest expiry c, acts = soon ++ a :: rest →
    Fills verified (parseJTI token) c expiry (after verified start soon) a →
    (after verified start acts).now < expiry →
      ∃ k, Accepted verified (after verified start acts).redis (after verified start acts).now
        token k ∧ k.expiresAt.isSome ∧ tokenClaims k = c

/-- **When the fast path is right**, at the end of any history. -/
theorem validateBearer_agrees_iff (verified : Bytes → Option Claims) (start : Int)
    (acts : List Action) (token : Bytes) :
    (∀ c, (validateBearer verified (after verified start acts).redis
        (after verified start acts).now token).1 = .ok c →
      Reports verified (after verified start acts).redis (after verified start acts).now token c) ↔
      HistoryAgrees verified start acts token := by
  constructor
  · intro h soon a rest expiry c hacts hfills hlive
    have hc := (cached_after_iff start acts).mpr ⟨soon, a, rest, expiry, hacts, hfills, hlive⟩
    exact reports_iff.mp (h c (by rw [validateBearer_of_cached hc]))
  · intro h c hok
    cases hc : cached (after verified start acts).redis (after verified start acts).now
        (parseJTI token) with
    | none =>
      rw [validateBearer_eq_slow hc] at hok
      exact validateSlow_ok_iff.mp hok
    | some c' =>
      rw [validateBearer_of_cached hc] at hok
      cases hok
      obtain ⟨soon, a, rest, expiry, hacts, hfills, hlive⟩ := (cached_after_iff start acts).mp hc
      exact reports_iff.mpr (h soon a rest expiry c hacts hfills hlive)

def samplePayload : Bytes :=
  stringBytes "eyJzdWIiOiJ1IiwiZXhwIjozMDAsImp0aSI6ImoiLCJ0ZW5hbnRfaWQiOiJ0IiwiYWNjZXNzIjpbXX0"

def sampleClaims : Claims :=
  { issueToken 0 "j" "u" "t" [] [] false "" [] "" with
    issuer := ""
    audience := []
    issuedAt := none
    principalKind := "" }

def genuine : Bytes :=
  compact (stringBytes "eyJhbGciOiJSUzI1NiJ9") samplePayload (stringBytes "c2ln")

def forged : Bytes :=
  compact (stringBytes "eyJhbGciOiJSUzI1NiJ9") samplePayload (stringBytes "Zm9v")

def onlyGenuine (token : Bytes) : Option Claims :=
  if token = genuine then some sampleClaims else none

theorem validateBearer_accepts_forged :
    ¬ ∀ (verified : Bytes → Option Claims) (start : Int) (acts : List Action)
        (token : Bytes) (c : TokenClaims),
      (validateBearer verified (after verified start acts).redis
          (after verified start acts).now token).1 = .ok c →
        Reports verified (after verified start acts).redis
          (after verified start acts).now token c := by
  intro h
  have hfast : (validateBearer onlyGenuine (after onlyGenuine 0 [.validateBearer genuine]).redis
      (after onlyGenuine 0 [.validateBearer genuine]).now forged).1 = .ok ⟨"u", "t", []⟩ := by
    decide +kernel
  have hslow : validateTokenRPC onlyGenuine (after onlyGenuine 0 [.validateBearer genuine]).redis
      (after onlyGenuine 0 [.validateBearer genuine]).now forged = .error .unauthenticated := by
    decide +kernel
  obtain ⟨resp, hok, _⟩ := h onlyGenuine 0 [.validateBearer genuine] forged _ hfast
  rw [hslow] at hok
  cases hok

end OciJanus.Core.Bearer
