import OciJanus.Verified.ExpiringStore
import OciJanus.Verified.Rfc3339
import OciJanus.Verified.Sha256

/-!
# Tokens of registry-auth

`verified` stands for `jwt.ParseWithClaims` over the key ring: the claims of a text whose RS256
signature one of the keys verifies.
-/

namespace OciJanus.Auth.Token

open Verified.Sha256 Verified.ExpiringStore
open Verified.Rfc3339 (truncateMicro)

structure RepositoryAccess where
  (type name : String)
  actions : List String
  deriving DecidableEq

structure Claims where
  (issuer subject : String)
  audience : List String
  (expiresAt notBefore issuedAt : Option Int)
  (id tenantID : String)
  access : List RepositoryAccess
  roles : List String
  isGlobalAdmin : Bool
  (principalKind source trustID typ : String)
  amr : List String
  sid : String
  deriving DecidableEq

def second : Int := 1000000000

def minute : Int := 60 * second

def tokenTTL : Int := 5 * minute

def workloadTokenTTL : Int := 15 * minute

def userJTISetTTL : Int := 2 * tokenTTL

def newNumericDate (t : Int) : Int := t / second * second

def timestamptz (t : Int) : Int := truncateMicro t

theorem timestamptz_le (t : Int) : timestamptz t ≤ t := by
  unfold timestamptz truncateMicro
  omega

structure TokenClaims where
  (userID tenantID : String)
  access : List RepositoryAccess
  deriving DecidableEq

inductive RedisKey where
  | valid (jti : String)
  | revoked (jti : String)
  | revokeUser (id : String)
  | revokeSid (sid : String)
  | userJTIs (userID : String)

def RedisKey.text : RedisKey → String
  | .valid jti => "jwt:valid:" ++ jti
  | .revoked jti => "jwt:revoked:" ++ jti
  | .revokeUser id => "revoke:user:" ++ id
  | .revokeSid sid => "revoke:sid:" ++ sid
  | .userJTIs userID => "user:jtis:" ++ userID

theorem RedisKey.text_injective : Function.Injective RedisKey.text := by
  intro k k' h
  have hl := congrArg String.toList h
  cases k <;> cases k' <;> simp [RedisKey.text, String.toList_append] at hl ⊢
  all_goals exact String.toList_inj.mp hl

inductive RedisValue where
  | one
  | claims (c : TokenClaims)
  | members (xs : List String)

abbrev Redis := Store String RedisValue

section Redis

variable (r : Redis) (now : Int)

def stored (k : RedisKey) : Option (Entry RedisValue) := r.entry k.text

def lookup (k : RedisKey) : Option RedisValue := r.get now k.text

def store (k : RedisKey) (v : RedisValue) (ttl : Int) : Redis := r.set now k.text v ttl

def remove (k : RedisKey) : Redis := r.del k.text

variable {r now}

variable {v : RedisValue}

theorem lookup_eq_some_iff {k : RedisKey} :
    lookup r now k = some v ↔ ∃ d, stored r k = some ⟨v, d⟩ ∧ now < d :=
  Store.get_eq_some_iff

theorem lookup_eq_none {k : RedisKey} (h : ∀ e, stored r k = some e → e.deadline ≤ now) :
    lookup r now k = none := by
  cases hl : lookup r now k with
  | none => rfl
  | some v =>
    obtain ⟨d, hd, hlt⟩ := lookup_eq_some_iff.mp hl
    have hle : d ≤ now := h _ hd
    omega

@[simp] theorem stored_store_self {k : RedisKey} {ttl : Int} :
    stored (store r now k v ttl) k = some ⟨v, now + ttl⟩ :=
  Store.set_entry_self r now k.text v ttl

@[simp] theorem stored_store_ne {k k' : RedisKey} {ttl : Int}
    (h : k' ≠ k) : stored (store r now k v ttl) k' = stored r k' :=
  Store.set_entry_ne r now v ttl (RedisKey.text_injective.ne h)

@[simp] theorem stored_remove_ne {k k' : RedisKey} (h : k' ≠ k) :
    stored (remove r k) k' = stored r k' :=
  Store.del_entry_ne r (RedisKey.text_injective.ne h)

end Redis

def issueToken (now : Int) (jti userID tenantID : String) (access : List RepositoryAccess)
    (roles : List String) (isGlobalAdmin : Bool) (principalKind : String)
    (amr : List String) (sid : String) : Claims where
  issuer := "registry-auth"
  subject := userID
  audience := ["registry-core"]
  expiresAt := some (newNumericDate (now + tokenTTL))
  notBefore := none
  issuedAt := some (newNumericDate now)
  id := jti
  tenantID := tenantID
  access := access
  roles := roles
  isGlobalAdmin := isGlobalAdmin
  principalKind := if principalKind = "" then "human" else principalKind
  source := ""
  trustID := ""
  typ := ""
  amr := amr
  sid := sid

def issueWorkloadToken (now : Int) (jti userID tenantID trustID : String)
    (access : List RepositoryAccess) : Claims where
  issuer := "registry-auth"
  subject := userID
  audience := ["registry-core"]
  expiresAt := some (newNumericDate (now + workloadTokenTTL))
  notBefore := none
  issuedAt := some (newNumericDate now)
  id := jti
  tenantID := tenantID
  access := access
  roles := []
  isGlobalAdmin := false
  principalKind := "service_account"
  source := "workload_oidc"
  trustID := trustID
  typ := ""
  amr := []
  sid := ""

def userJTIs (r : Redis) (now : Int) (userID : String) : List String :=
  match lookup r now (.userJTIs userID) with
  | some (.members xs) => xs
  | _ => []

def sAdd (xs : List String) (x : String) : List String := if x ∈ xs then xs else xs ++ [x]

def recordIssuedJTI (r : Redis) (now : Int) (userID jti : String) : Redis :=
  if userID = "" ∨ jti = "" then r
  else
    store r now (.userJTIs userID) (.members (sAdd (userJTIs r now userID) jti)) userJTISetTTL

section Validate

variable (verified : Bytes → Option Claims)

def Claims.timely (now : Int) (c : Claims) : Bool :=
  c.expiresAt.all (fun e => decide (now < e)) && c.notBefore.all (fun b => decide (b ≤ now))

def parseAndVerify (now : Int) (tok : Bytes) : Option Claims :=
  (verified tok).filter (Claims.timely now)

inductive TokenError where
  | invalidCredentials
  | tokenRevoked
  | principalRevoked
  | sessionRevoked
  deriving DecidableEq

def isRevoked (r : Redis) (now : Int) (jti : String) : Bool :=
  (lookup r now (.revoked jti)).isSome

def validateToken (r : Redis) (now : Int) (tok : Bytes) : Except TokenError Claims :=
  match parseAndVerify verified now tok with
  | none => .error .invalidCredentials
  | some claims =>
    if claims.typ ≠ "" then .error .invalidCredentials
    else if isRevoked r now claims.id then .error .tokenRevoked
    else if (lookup r now (.revokeUser claims.subject)).isSome then .error .principalRevoked
    else if claims.sid ≠ "" ∧ (lookup r now (.revokeSid claims.sid)).isSome then
      .error .sessionRevoked
    else .ok claims

structure Accepted (r : Redis) (now : Int) (tok : Bytes) (c : Claims) : Prop where
  signed : verified tok = some c
  timely : c.timely now = true
  access : c.typ = ""
  jti : lookup r now (.revoked c.id) = none
  user : lookup r now (.revokeUser c.subject) = none
  session : c.sid = "" ∨ lookup r now (.revokeSid c.sid) = none

variable {verified}

theorem parseAndVerify_eq_some_iff {now : Int} {tok : Bytes} {c : Claims} :
    parseAndVerify verified now tok = some c ↔ verified tok = some c ∧ c.timely now = true := by
  simp [parseAndVerify, Option.filter_eq_some_iff]

theorem validateToken_ok_iff {r : Redis} {now : Int} {tok : Bytes} {c : Claims} :
    validateToken verified r now tok = .ok c ↔ Accepted verified r now tok c := by
  unfold validateToken
  constructor
  · intro h
    split at h
    · cases h
    · rename_i claims hparse
      split_ifs at h with htyp hjti huser hsid
      cases h
      obtain ⟨hsigned, htimely⟩ := parseAndVerify_eq_some_iff.mp hparse
      constructor
      · exact hsigned
      · exact htimely
      · exact not_not.mp htyp
      · simpa [isRevoked] using hjti
      · simpa using huser
      · by_cases hempty : c.sid = ""
        · exact Or.inl hempty
        · exact Or.inr (by simpa [hempty] using hsid)
  · intro h
    have hparse := parseAndVerify_eq_some_iff.mpr ⟨h.signed, h.timely⟩
    have hsid : ¬ (c.sid ≠ "" ∧ (lookup r now (.revokeSid c.sid)).isSome = true) := by
      rintro ⟨hne, hsome⟩
      rcases h.session with hempty | hnone
      · exact hne hempty
      · simp [hnone] at hsome
    simp [hparse, h.access, isRevoked, h.jti, h.user, hsid]

end Validate

def revokeToken (r : Redis) (now : Int) (c : Claims) : Redis :=
  match c.expiresAt with
  | none => r
  | some e => if e - now ≤ 0 then r else store r now (.revoked c.id) .one (e - now)

def revokeAllUserTokens (r : Redis) (now : Int) (userID : String) : Redis :=
  match userJTIs r now userID with
  | [] => r
  | jtis =>
    remove (jtis.foldl (fun r j => store r now (.revoked j) .one tokenTTL) r) (.userJTIs userID)

def setSessionRevokeGate (r : Redis) (now : Int) (sid : String) (expiresAt : Int) : Redis :=
  if expiresAt - now ≤ 0 then r
  else store r now (.revokeSid sid) .one (expiresAt - now)

def revokeKeyTTL : Int := 25 * minute

def revokePrincipal (r : Redis) (now : Int) (id : String) : Redis :=
  store r now (.revokeUser id) .one revokeKeyTTL

def restorePrincipal (r : Redis) (id : String) : Redis := remove r (.revokeUser id)

def refreshedClaims (now : Int) (jti : String) (c : Claims) : Claims :=
  issueToken now jti c.subject c.tenantID c.access c.roles c.isGlobalAdmin c.principalKind
    c.amr c.sid

def refreshToken (verified : Bytes → Option Claims) (r : Redis) (now : Int) (jti : String)
    (tok : Bytes) : Except TokenError (Claims × Redis) :=
  match validateToken verified r now tok with
  | .error _ => .error .invalidCredentials
  | .ok c =>
    .ok (refreshedClaims now jti c, revokeToken (recordIssuedJTI r now c.subject jti) now c)

/-! ## Which keys an operation writes

Each operation writes keys of one kind, or two; the entries of every other kind
stay as they are.
-/

section Frame

variable {r : Redis} {now : Int} {k : RedisKey}

theorem recordIssuedJTI_stored (hk : ∀ u, k ≠ .userJTIs u) (u jti : String) :
    stored (recordIssuedJTI r now u jti) k = stored r k := by
  unfold recordIssuedJTI
  split_ifs
  · rfl
  · exact stored_store_ne (hk u)

theorem recordIssuedJTI_stored_self {u jti : String} (h : ¬ (u = "" ∨ jti = "")) :
    stored (recordIssuedJTI r now u jti) (.userJTIs u) =
      some ⟨.members (sAdd (userJTIs r now u) jti), now + userJTISetTTL⟩ := by
  unfold recordIssuedJTI
  rw [if_neg h]
  exact stored_store_self

theorem revokeToken_stored_ne {c : Claims} (hk : k ≠ .revoked c.id) :
    stored (revokeToken r now c) k = stored r k := by
  unfold revokeToken
  cases c.expiresAt with
  | none => rfl
  | some e =>
    by_cases hle : e - now ≤ 0
    · simp [hle]
    · simp [hle, hk]

theorem revokeToken_stored (hk : ∀ i, k ≠ .revoked i) (c : Claims) :
    stored (revokeToken r now c) k = stored r k :=
  revokeToken_stored_ne (hk c.id)

theorem setSessionRevokeGate_stored (hk : ∀ s, k ≠ .revokeSid s) (sid : String) (e : Int) :
    stored (setSessionRevokeGate r now sid e) k = stored r k := by
  unfold setSessionRevokeGate
  split_ifs
  · rfl
  · exact stored_store_ne (hk sid)

theorem refreshToken_ok {verified : Bytes → Option Claims} {jti : String} {tok : Bytes}
    {p : Claims × Redis} (h : refreshToken verified r now jti tok = .ok p) :
    ∃ c, Accepted verified r now tok c ∧ p.1 = refreshedClaims now jti c ∧
      p.2 = revokeToken (recordIssuedJTI r now c.subject jti) now c := by
  unfold refreshToken at h
  cases hv : validateToken verified r now tok with
  | error e =>
    rw [hv] at h
    cases h
  | ok c =>
    rw [hv] at h
    cases h
    exact ⟨c, validateToken_ok_iff.mp hv, rfl, rfl⟩

end Frame

def ExpiresWithin (ttl now : Int) (c : Claims) : Prop :=
  ∃ e, c.expiresAt = some e ∧ e ≤ now + ttl

theorem ExpiresWithin.mono {ttl ttl' now now' : Int} {c : Claims}
    (h : ExpiresWithin ttl now c) (hle : now + ttl ≤ now' + ttl') : ExpiresWithin ttl' now' c := by
  obtain ⟨e, he, hbound⟩ := h
  exact ⟨e, he, by omega⟩

theorem newNumericDate_le (t : Int) : newNumericDate t ≤ t :=
  Int.ediv_mul_le t (by decide)

theorem issueToken_expires (now : Int) (jti u t : String) (access : List RepositoryAccess)
    (roles : List String) (ga : Bool) (kind : String) (amr : List String) (sid : String) :
    ExpiresWithin tokenTTL now (issueToken now jti u t access roles ga kind amr sid) :=
  ⟨_, rfl, newNumericDate_le _⟩

theorem issueWorkloadToken_expires (now : Int) (jti u t trust : String)
    (access : List RepositoryAccess) :
    ExpiresWithin workloadTokenTTL now (issueWorkloadToken now jti u t trust access) :=
  ⟨_, rfl, newNumericDate_le _⟩

def Dead (r : Redis) (now : Int) (c : Claims) : Prop :=
  ∃ e, c.expiresAt = some e ∧ (e ≤ now ∨ ∃ v d, stored r (.revoked c.id) = some ⟨v, d⟩ ∧ e ≤ d)

section Dead

variable {verified : Bytes → Option Claims} {r r' : Redis} {now now' e : Int} {tok : Bytes}
  {c : Claims}

theorem Accepted.now_lt (h : Accepted verified r now tok c) (he : c.expiresAt = some e) :
    now < e := by
  have htimely := h.timely
  unfold Claims.timely at htimely
  rw [he] at htimely
  simp only [Option.all_some, Bool.and_eq_true, decide_eq_true_eq] at htimely
  exact htimely.1

theorem Dead.not_accepted (h : Dead r now c) : ¬ Accepted verified r now tok c := by
  intro hacc
  obtain ⟨e, he, hcase⟩ := h
  have hlt := hacc.now_lt he
  rcases hcase with hexp | ⟨v, d, hstored, hed⟩
  · omega
  · have hlook := lookup_eq_some_iff.mpr ⟨d, hstored, show now < d by omega⟩
    rw [hacc.jti] at hlook
    cases hlook

theorem Dead.of_stored_eq (h : Dead r now c) (hle : now ≤ now')
    (hsame : stored r' (.revoked c.id) = stored r (.revoked c.id)) : Dead r' now' c := by
  obtain ⟨e, he, hcase⟩ := h
  refine ⟨e, he, ?_⟩
  rcases hcase with hexp | ⟨v, d, hstored, hed⟩
  · exact Or.inl (by omega)
  · exact Or.inr ⟨v, d, by rw [hsame, hstored], hed⟩

theorem Dead.of_lookup_none (h : Dead r now c) (hle : now ≤ now')
    (hnone : lookup r now (.revoked c.id) = none) : Dead r' now' c := by
  obtain ⟨e, he, hcase⟩ := h
  refine ⟨e, he, Or.inl ?_⟩
  rcases hcase with hexp | ⟨v, d, hstored, hed⟩
  · omega
  · by_contra hlive
    have hlook := lookup_eq_some_iff.mpr ⟨d, hstored, show now < d by omega⟩
    rw [hnone] at hlook
    cases hlook

end Dead

inductive RpcError where
  | unauthenticated
  | internal
  deriving DecidableEq

structure ValidateTokenResponse where
  valid : Bool
  (userID tenantID jti : String)
  access : List RepositoryAccess
  expiresAt : Int
  roles : List String
  deriving DecidableEq

def validateTokenRPC (verified : Bytes → Option Claims) (r : Redis) (now : Int)
    (tok : Bytes) : Except RpcError ValidateTokenResponse :=
  match validateToken verified r now tok with
  | .error _ => .error .unauthenticated
  | .ok c =>
    match c.expiresAt with
    | none => .error .internal
    | some e => .ok ⟨true, c.subject, c.tenantID, c.id, c.access, e, c.roles⟩

theorem validateTokenRPC_ok_iff {verified : Bytes → Option Claims} {r : Redis} {now : Int}
    {tok : Bytes} {resp : ValidateTokenResponse} :
    validateTokenRPC verified r now tok = .ok resp ↔
      ∃ c e, Accepted verified r now tok c ∧ c.expiresAt = some e ∧
        resp = ⟨true, c.subject, c.tenantID, c.id, c.access, e, c.roles⟩ := by
  unfold validateTokenRPC
  constructor
  · intro h
    cases hv : validateToken verified r now tok with
    | error err =>
      rw [hv] at h
      cases h
    | ok c =>
      simp only [hv] at h
      cases he : c.expiresAt with
      | none =>
        rw [he] at h
        cases h
      | some e =>
        rw [he] at h
        cases h
        exact ⟨c, e, validateToken_ok_iff.mp hv, he, rfl⟩
  · rintro ⟨c, e, hacc, he, rfl⟩
    simp [validateToken_ok_iff.mpr hacc, he]

end OciJanus.Auth.Token
