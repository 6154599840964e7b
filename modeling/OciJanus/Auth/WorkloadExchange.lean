import OciJanus.Auth.Lifecycle
import OciJanus.Auth.SubjectGlob

/-!
# Workload tokens for OIDC identities

`parseUnverified` and `rs256` stand for golang-jwt; `fetchJWKS` is what an issuer publishes at a
time.
-/

namespace OciJanus.Auth.WorkloadExchange

open Auth.Token Auth.ApiKey List
open Auth.Delegation (Text Code uuidNil plainText)
open Verified Sha256 Utf8 GoStrings Run ExpiringStore Auth.SubjectGlob

def endsAtBoundary (issuer entry : String) : Bool :=
  hasSuffix entry "/" || issuer.toList.length == entry.toList.length ||
    (issuer.toList.drop entry.toList.length).head? == some '/'

def issuerAllowed (allow : List String) (issuer : String) : Bool :=
  issuer != "" && allow.any fun entry =>
    entry != "" && hasPrefix issuer entry && endsAtBoundary issuer entry

structure JWKS (Key : Type) where
  key : String → Option Key
  named : key "" = none

structure CachedJWKS (Key : Type) where
  issuer : String
  keys : JWKS Key
  fetchedAt : Int

def maxJWKSCacheSize : Nat := 16

def evictOldest {Key : Type} (cache : List (CachedJWKS Key)) : List (CachedJWKS Key) :=
  match cache.find? fun e => cache.all fun f => e.fetchedAt ≤ f.fetchedAt with
  | none => cache
  | some oldest => cache.filter fun e => e.issuer ≠ oldest.issuer

inductive Aud where
  | text (s : String)
  | list (elements : List (Option String))
  | other

structure JWT where
  alg : String
  (kid iss sub : Option String)
  aud : Aud
  (exp nbf : Except Unit (Option Int))

def firstAudience : Aud → String
  | .text s => s
  | .list [] => ""
  | .list (s :: _) => s.getD ""
  | .other => ""

def JWT.issuer (tok : JWT) : String := tok.iss.getD ""

def JWT.subject (tok : JWT) : String := tok.sub.getD ""

structure Env (Key : Type) where
  text : Text
  verified : Bytes → Option Claims
  allowedIssuers : List String
  parseUnverified : Bytes → Option JWT
  rs256 : Key → Bytes → Bool
  fetchJWKS : String → Int → Option (JWKS Key)

structure OIDCTrust where
  (id tenantID serviceAccountID displayName issuerURL audience subjectPattern : String)
  jwksCacheTTLSeconds : Int

structure World (Key : Type) where
  services : ServiceAccount.World
  trusts : List OIDCTrust
  cache : List (CachedJWKS Key)

structure CreateOIDCTrustInput where
  (tenantID serviceAccountID displayName issuerURL audience subjectPattern : String)
  jwksCacheTTLSeconds : Int

structure UpdateOIDCTrustInput where
  (id tenantID displayName subjectPattern : String)
  jwksCacheTTLSeconds : Int

def validateJWKSCacheTTL (ttl : Int) : Bool := ttl == 0 || (60 ≤ ttl && ttl ≤ 86400)

def ttlOrDefault (ttl : Int) : Int := if ttl = 0 then 3600 else ttl

section Calls

variable {Key : Type} (env : Env Key) (w : World Key)

def getServiceAccount (id : String) : Option ServiceAccount :=
  w.services.serviceAccounts.find? (·.id = id)

def checkAccount (inp : CreateOIDCTrustInput) : Except Code Unit :=
  if inp.serviceAccountID = uuidNil then .error .invalidArgument
  else
    match getServiceAccount w inp.serviceAccountID with
    | none => .error .invalidArgument
    | some sa =>
      if sa.tenantID ≠ inp.tenantID then .error .invalidArgument
      else if sa.disabledAt.isSome then .error .invalidArgument
      else .ok ()

def validateOnCreate (inp : CreateOIDCTrustInput) : Except Code Unit :=
  if trimSpace inp.displayName = "" then .error .invalidArgument
  else if trimSpace inp.audience = "" then .error .invalidArgument
  else if trimSpace inp.issuerURL = "" then .error .invalidArgument
  else if !hasPrefix inp.issuerURL "https://" then .error .invalidArgument
  else if !issuerAllowed env.allowedIssuers inp.issuerURL then .error .invalidArgument
  else if !validateGlobSyntax inp.subjectPattern then .error .invalidArgument
  else if !validateJWKSCacheTTL inp.jwksCacheTTLSeconds then .error .invalidArgument
  else checkAccount w inp

def CreateOIDCTrustInput.row (inp : CreateOIDCTrustInput) (id : String) : OIDCTrust :=
  ⟨id, inp.tenantID, inp.serviceAccountID, inp.displayName, inp.issuerURL, inp.audience,
    inp.subjectPattern, ttlOrDefault inp.jwksCacheTTLSeconds⟩

def createTrust (inp : CreateOIDCTrustInput) (id : String) : Except Code (World Key) :=
  match validateOnCreate env w inp with
  | .error c => .error c
  | .ok () =>
    if w.trusts.any fun t => t.tenantID = inp.tenantID ∧ t.issuerURL = inp.issuerURL ∧
        t.subjectPattern = inp.subjectPattern
    then .error .alreadyExists
    else if w.trusts.any (·.id = id) then .error .internal
    else .ok { w with trusts := inp.row id :: w.trusts }

def UpdateOIDCTrustInput.selects (inp : UpdateOIDCTrustInput) (t : OIDCTrust) : Bool :=
  t.id = inp.id ∧ t.tenantID = inp.tenantID

def UpdateOIDCTrustInput.apply (inp : UpdateOIDCTrustInput) (t : OIDCTrust) : OIDCTrust :=
  if inp.selects t then
    { t with
      displayName := inp.displayName
      subjectPattern := inp.subjectPattern
      jwksCacheTTLSeconds := ttlOrDefault inp.jwksCacheTTLSeconds }
  else t

def updateTrust (inp : UpdateOIDCTrustInput) : Except Code (World Key) :=
  if trimSpace inp.displayName = "" then .error .invalidArgument
  else if !validateGlobSyntax inp.subjectPattern then .error .invalidArgument
  else if !validateJWKSCacheTTL inp.jwksCacheTTLSeconds then .error .invalidArgument
  else
    match w.trusts.find? inp.selects with
    | none => .error .notFound
    | some t =>
      if w.trusts.any fun other => other.id ≠ t.id ∧ other.tenantID = t.tenantID ∧
          other.issuerURL = t.issuerURL ∧ other.subjectPattern = inp.subjectPattern
      then .error .alreadyExists
      else .ok { w with trusts := w.trusts.map inp.apply }

def deleteTrust (tenantID id : String) : Except Code (World Key) :=
  if w.trusts.any fun t => t.id = id ∧ t.tenantID = tenantID then
    .ok { w with trusts := w.trusts.filter fun t => ¬ (t.id = id ∧ t.tenantID = tenantID) }
  else .error .notFound

def serviceCall (a : ServiceAccount.Action) : World Key :=
  { w with
    services := ServiceAccount.step env.text env.verified w.services a
    trusts := w.trusts.filter fun t =>
      (ServiceAccount.step env.text env.verified w.services a).serviceAccounts.any
        (·.id = t.serviceAccountID) }

def refetch (issuer : String) (now : Int) (cache : List (CachedJWKS Key)) :
    Option (JWKS Key) × List (CachedJWKS Key) :=
  match env.fetchJWKS issuer now with
  | none => (none, cache)
  | some keys => (some keys, ⟨issuer, keys, now⟩ :: cache.filter fun e => e.issuer ≠ issuer)

def fetch (issuer : String) (now ttl : Int) (cache : List (CachedJWKS Key)) :
    Option (JWKS Key) × List (CachedJWKS Key) :=
  match cache.find? fun e => e.issuer = issuer with
  | some e =>
    if now - e.fetchedAt < ttl then (some e.keys, cache) else refetch env issuer now cache
  | none =>
    if maxJWKSCacheSize ≤ cache.length then refetch env issuer now (evictOldest cache)
    else refetch env issuer now cache

inductive RejectReason where
  | issuerNotAllowed
  | audienceMismatch
  | subjectMismatch
  | signatureInvalid
  | expired
  | notYetValid
  | saDisabled
  deriving DecidableEq

inductive ExchangeError where
  | rejected (reason : RejectReason)
  | unavailable
  deriving DecidableEq

def verify (keys : JWKS Key) (now : Int) (raw : Bytes) (tok : JWT) : Except RejectReason Unit :=
  if tok.alg ≠ "RS256" then .error .signatureInvalid
  else
    match keys.key (tok.kid.getD "") with
    | none => .error .signatureInvalid
    | some k =>
      if !env.rs256 k raw then .error .signatureInvalid
      else
        match tok.exp, tok.nbf with
        | .ok exp, .ok nbf =>
          if exp.any (· ≤ now) then .error .expired
          else if nbf.any (now < ·) then .error .notYetValid
          else .ok ()
        | .ok exp, .error () =>
          if exp.any (· ≤ now) then .error .expired else .error .signatureInvalid
        | .error (), .ok nbf =>
          if nbf.any (now < ·) then .error .notYetValid else .error .signatureInvalid
        | .error (), .error () => .error .signatureInvalid

def matchTrust (tok : JWT) : Except RejectReason OIDCTrust :=
  match (w.trusts.filter fun t => t.issuerURL = tok.issuer).find? fun t =>
      t.audience = firstAudience tok.aud ∧ subjectMatches t.subjectPattern tok.subject with
  | some t => .ok t
  | none =>
    if (w.trusts.filter fun t => t.issuerURL = tok.issuer).any fun t =>
        t.audience = firstAudience tok.aud
    then .error .subjectMismatch
    else .error .audienceMismatch

def workloadClaims (now : Int) (jti : String) (t : OIDCTrust) (sa : ServiceAccount) : Claims :=
  issueWorkloadToken now jti sa.shadowUserID sa.tenantID t.id (mapScopesToAccess sa.allowedScopes)

def mint (t : OIDCTrust) (jti : String) : Except ExchangeError Claims × World Key :=
  match getServiceAccount w t.serviceAccountID with
  | none => (.error (.rejected .saDisabled), w)
  | some sa =>
    if sa.disabledAt.isSome then (.error (.rejected .saDisabled), w)
    else
      (.ok (workloadClaims w.services.now jti t sa),
        { w with services :=
            ServiceAccount.sign w.services (workloadClaims w.services.now jti t sa) })

def verifyAndMint (raw : Bytes) (tok : JWT) (t : OIDCTrust) (jti : String) :
    Except ExchangeError Claims × World Key :=
  match fetch env tok.issuer w.services.now (t.jwksCacheTTLSeconds * second) w.cache with
  | (none, cache) => (.error .unavailable, { w with cache := cache })
  | (some keys, cache) =>
    match verify env keys w.services.now raw tok with
    | .error reason => (.error (.rejected reason), { w with cache := cache })
    | .ok () => mint { w with cache := cache } t jti

def exchangeWorkloadToken (raw : Bytes) (jti : String) : Except ExchangeError Claims × World Key :=
  if raw = [] then (.error (.rejected .signatureInvalid), w)
  else
    match env.parseUnverified raw with
    | none => (.error (.rejected .signatureInvalid), w)
    | some tok =>
      if !issuerAllowed env.allowedIssuers tok.issuer then
        (.error (.rejected .issuerNotAllowed), w)
      else
        match matchTrust w tok with
        | .error reason => (.error (.rejected reason), w)
        | .ok t => verifyAndMint env w raw tok t jti

end Calls

inductive Action where
  | service (a : ServiceAccount.Action)
  | createTrust (inp : CreateOIDCTrustInput) (id : String)
  | updateTrust (inp : UpdateOIDCTrustInput)
  | deleteTrust (tenantID id : String)
  | exchange (raw : Bytes) (jti : String)

def step {Key : Type} (env : Env Key) (w : World Key) : Action → World Key
  | .service a => serviceCall env w a
  | .createTrust inp id => (createTrust env w inp id).toOption.getD w
  | .updateTrust inp => (updateTrust w inp).toOption.getD w
  | .deleteTrust tenantID id => (deleteTrust w tenantID id).toOption.getD w
  | .exchange raw jti => (exchangeWorkloadToken env w raw jti).2

section Pieces

variable {Key : Type} {env : Env Key} {w : World Key}

def CacheOK (env : Env Key) (now : Int) (cache : List (CachedJWKS Key)) : Prop :=
  ∀ e ∈ cache, env.fetchJWKS e.issuer e.fetchedAt = some e.keys ∧ e.fetchedAt ≤ now

variable {now : Int}

theorem CacheOK.evictOldest {cache : List (CachedJWKS Key)}
    (h : CacheOK env now cache) : CacheOK env now (evictOldest cache) := by
  unfold WorkloadExchange.evictOldest
  split
  · exact h
  · exact fun e he => h e (mem_filter.mp he).1

theorem CacheOK.refetch {issuer : String} {cache : List (CachedJWKS Key)}
    (h : CacheOK env now cache) :
    CacheOK env now (refetch env issuer now cache).2 ∧
      ∀ keys, (refetch env issuer now cache).1 = some keys →
        env.fetchJWKS issuer now = some keys := by
  unfold WorkloadExchange.refetch
  cases hf : env.fetchJWKS issuer now with
  | none => exact ⟨h, nofun⟩
  | some keys =>
    refine ⟨fun e he => ?_, fun keys' hk => hk⟩
    rcases mem_cons.mp he with rfl | hold
    · exact ⟨hf, le_rfl⟩
    · exact h e (mem_filter.mp hold).1

theorem CacheOK.fetch {cache : List (CachedJWKS Key)}
    (h : CacheOK env now cache) (issuer : String) (ttl : Int) :
    CacheOK env now (fetch env issuer now ttl cache).2 ∧
      ∀ keys, (fetch env issuer now ttl cache).1 = some keys →
        ∃ t, env.fetchJWKS issuer t = some keys ∧ t ≤ now := by
  have hre : ∀ cache', CacheOK env now cache' →
      CacheOK env now (WorkloadExchange.refetch env issuer now cache').2 ∧
        ∀ keys, (WorkloadExchange.refetch env issuer now cache').1 = some keys →
          ∃ t, env.fetchJWKS issuer t = some keys ∧ t ≤ now := fun cache' h' =>
    ⟨h'.refetch.1, fun keys hk => ⟨now, h'.refetch.2 keys hk, le_rfl⟩⟩
  unfold WorkloadExchange.fetch
  cases hfind : cache.find? fun e => e.issuer = issuer with
  | none =>
    simp only
    split_ifs
    · exact hre _ h.evictOldest
    · exact hre _ h
  | some e =>
    obtain ⟨hkeys, hle⟩ := h e (mem_of_find?_eq_some hfind)
    have hissuer : e.issuer = issuer := by simpa using List.find?_some hfind
    simp only
    split_ifs
    · refine ⟨h, fun keys hk => ⟨e.fetchedAt, ?_, hle⟩⟩
      cases hk
      rw [← hissuer]
      exact hkeys
    · exact hre _ h

structure SignedByIssuer (env : Env Key) (now : Int) (raw : Bytes) (tok : JWT) : Prop where
  read : env.parseUnverified raw = some tok
  rs256 : tok.alg = "RS256"
  key : ∃ kid keys k t, tok.kid = some kid ∧ env.fetchJWKS tok.issuer t = some keys ∧ t ≤ now ∧
    keys.key kid = some k ∧ env.rs256 k raw = true

structure Fits (t : OIDCTrust) (tok : JWT) : Prop where
  issuer : t.issuerURL = tok.issuer
  audience : t.audience = firstAudience tok.aud
  subject : Matches (stringBytes t.subjectPattern) (stringBytes tok.subject)

variable {tok : JWT}

theorem verify_ok {keys : JWKS Key} {raw : Bytes} (h : verify env keys now raw tok = .ok ()) :
    tok.alg = "RS256" ∧ ∃ kid k, tok.kid = some kid ∧ keys.key kid = some k ∧
      env.rs256 k raw = true := by
  unfold verify at h
  split_ifs at h with halg
  cases hkey : keys.key (tok.kid.getD "") with
  | none => simp [hkey] at h
  | some k =>
    simp only [hkey] at h
    split_ifs at h with hsig
    refine ⟨not_not.mp halg, ?_⟩
    cases hkid : tok.kid with
    | none =>
      rw [hkid, Option.getD_none, keys.named] at hkey
      cases hkey
    | some kid =>
      rw [hkid] at hkey
      exact ⟨kid, k, rfl, hkey, by simpa using hsig⟩

theorem matchTrust_ok {t : OIDCTrust} (h : matchTrust w tok = .ok t) :
    t ∈ w.trusts ∧ Fits t tok := by
  unfold matchTrust at h
  split at h
  · rename_i t' hfind
    cases h
    obtain ⟨hmem, hissuer⟩ := mem_filter.mp (mem_of_find?_eq_some hfind)
    have hfit := List.find?_some hfind
    obtain ⟨haud, hsub⟩ := of_decide_eq_true hfit
    exact ⟨hmem, of_decide_eq_true hissuer, haud, (matchGlob_iff ..).mp hsub⟩
  · split_ifs at h

theorem getServiceAccount_some {id : String} {sa : ServiceAccount}
    (h : getServiceAccount w id = some sa) : sa ∈ w.services.serviceAccounts ∧ sa.id = id :=
  ⟨mem_of_find?_eq_some h, by simpa using List.find?_some h⟩

structure Granted (env : Env Key) (w : World Key) (raw : Bytes) (tok : JWT) (t : OIDCTrust)
    (sa : ServiceAccount) : Prop where
  signed : SignedByIssuer env w.services.now raw tok
  allowed : issuerAllowed env.allowedIssuers tok.issuer = true
  trust : t ∈ w.trusts
  fits : Fits t tok
  account : sa ∈ w.services.serviceAccounts
  bound : sa.id = t.serviceAccountID
  active : sa.disabledAt = none

inductive Outcome (env : Env Key) (w : World Key) (raw : Bytes) (jti : String) :
    Except ExchangeError Claims × World Key → Prop
  | failed (e : ExchangeError) {cache : List (CachedJWKS Key)}
      (ok : CacheOK env w.services.now cache) :
      Outcome env w raw jti (.error e, { w with cache := cache })
  | granted (tok : JWT) (t : OIDCTrust) (sa : ServiceAccount) {cache : List (CachedJWKS Key)}
      (ok : CacheOK env w.services.now cache) (grant : Granted env w raw tok t sa) :
      Outcome env w raw jti (.ok (workloadClaims w.services.now jti t sa),
          { w with
            cache := cache
            services :=
              ServiceAccount.sign w.services (workloadClaims w.services.now jti t sa) })

theorem verifyAndMint_outcome (hcache : CacheOK env w.services.now w.cache) {raw : Bytes}
    {t : OIDCTrust} (jti : String) (hread : env.parseUnverified raw = some tok)
    (hallowed : issuerAllowed env.allowedIssuers tok.issuer = true) (htrust : t ∈ w.trusts)
    (hfits : Fits t tok) : Outcome env w raw jti (verifyAndMint env w raw tok t jti) := by
  obtain ⟨hcache', hkeys⟩ := hcache.fetch tok.issuer (t.jwksCacheTTLSeconds * second)
  unfold verifyAndMint
  split
  · rename_i cache hfetch
    rw [hfetch] at hcache'
    exact .failed _ hcache'
  · rename_i keys cache hfetch
    rw [hfetch] at hcache' hkeys
    obtain ⟨fetchedAt, hpublished, hle⟩ := hkeys keys rfl
    cases hverify : verify env keys w.services.now raw tok with
    | error reason => exact .failed _ hcache'
    | ok _ =>
      obtain ⟨halg, kid, k, hkid, hkey, hsig⟩ := verify_ok hverify
      simp only [mint]
      split
      · exact .failed _ hcache'
      · rename_i sa hsa
        obtain ⟨hmem, hid⟩ := getServiceAccount_some hsa
        split_ifs with hdisabled
        · exact .failed _ hcache'
        · refine .granted tok t sa hcache' ⟨⟨hread, halg, ?_⟩, hallowed, htrust, hfits, hmem,
            hid, by simpa using hdisabled⟩
          exact ⟨kid, keys, k, fetchedAt, hkid, hpublished, hle, hkey, hsig⟩

theorem exchange_outcome (hcache : CacheOK env w.services.now w.cache) (raw : Bytes)
    (jti : String) : Outcome env w raw jti (exchangeWorkloadToken env w raw jti) := by
  unfold exchangeWorkloadToken
  split_ifs
  · exact .failed _ hcache
  cases hread : env.parseUnverified raw with
  | none => exact .failed _ hcache
  | some tok =>
    simp only
    split_ifs with hallowed
    · exact .failed _ hcache
    cases hmatch : matchTrust w tok with
    | error reason => exact .failed _ hcache
    | ok t =>
      obtain ⟨htrust, hfits⟩ := matchTrust_ok hmatch
      exact verifyAndMint_outcome hcache jti hread (by simpa using hallowed) htrust hfits

end Pieces

def homes (w : ServiceAccount.World) : List (String × String) :=
  w.serviceAccounts.map fun sa => (sa.id, sa.tenantID)

theorem step_homes (x : Text) (verified : Bytes → Option Claims) (w : ServiceAccount.World)
    (a : ServiceAccount.Action) :
    homes (ServiceAccount.step x verified w a) ⊆ homes w ∨
      ∃ p, homes (ServiceAccount.step x verified w a) = homes w ++ [p] ∧
        ∀ q ∈ homes w, q.1 ≠ p.1 := by
  unfold ServiceAccount.step
  cases hout : ServiceAccount.outcome x verified w a with
  | error c => exact Or.inl (List.Subset.refl _)
  | ok w' =>
    have hsame : homes w' = homes w → homes w' ⊆ homes w := fun h => by
      rw [h]
      exact List.Subset.refl _
    cases a with
    | create inp saID shadowID =>
      obtain ⟨_, haccounts⟩ := ServiceAccount.create_accounts hout
      refine Or.inr ⟨(saID, inp.tenantID), by simp [homes, haccounts], fun q hq => ?_⟩
      obtain ⟨sa, hsa, rfl⟩ := mem_map.mp hq
      exact (ServiceAccount.create_fresh hout sa hsa).1
    | update inp =>
      obtain rfl := ServiceAccount.update_ok hout
      exact Or.inl (hsame (ServiceAccount.map_updateRows (fun _ _ _ => rfl) _ _ _))
    | setDisabled id tenantID disabled =>
      obtain ⟨_, _, _, rfl⟩ := ServiceAccount.setDisabled_ok hout
      exact Or.inl (hsame (ServiceAccount.map_updateRows (fun _ _ _ => rfl) _ _ _))
    | delete id =>
      obtain ⟨sa, _, _, rfl⟩ := ServiceAccount.delete_ok hout
      exact Or.inl (map_subset _ (filter_sublist).subset)
    | issueKey inp keyID keyHash =>
      exact Or.inl (hsame (congrArg (List.map _) (ServiceAccount.issueKey_accounts hout).1))
    | refreshToken tok jti =>
      cases hout
      exact Or.inl (hsame (congrArg (List.map _) (ServiceAccount.refresh_accounts w tok jti)))
    | tick | role | issueToken | issueWorkloadToken =>
      cases hout
      exact Or.inl (hsame rfl)

structure Inv {Key : Type} (env : Env Key) (w : World Key) : Prop where
  unique : ∀ p ∈ homes w.services, ∀ q ∈ homes w.services, p.1 = q.1 → p = q
  bound : ∀ t ∈ w.trusts, (t.serviceAccountID, t.tenantID) ∈ homes w.services
  cached : CacheOK env w.services.now w.cache

section Invariants

variable {Key : Type} {env : Env Key} {w : World Key}

theorem Inv.serviceCall (hw : Inv env w) (a : ServiceAccount.Action) :
    Inv env (serviceCall env w a) := by
  have hhomes := step_homes env.text env.verified w.services a
  have heff : Lifecycle.Effect env.verified w.services a
      (ServiceAccount.step env.text env.verified w.services a) :=
    Lifecycle.step_effect w.services a
  have hnow := heff.now_le
  refine ⟨?_, fun t ht => ?_, fun e he => ?_⟩
  · intro p hp q hq hpq
    rcases hhomes with hsub | ⟨r, happ, hfresh⟩
    · exact hw.unique p (hsub hp) q (hsub hq) hpq
    · have hp' : p ∈ homes w.services ++ [r] := happ ▸ hp
      have hq' : q ∈ homes w.services ++ [r] := happ ▸ hq
      simp only [mem_append, mem_singleton] at hp' hq'
      rcases hp' with hp' | rfl <;> rcases hq' with hq' | rfl
      · exact hw.unique p hp' q hq' hpq
      · exact absurd hpq (hfresh p hp')
      · exact absurd hpq.symm (hfresh q hq')
      · rfl
  · obtain ⟨hmem, hkept⟩ := mem_filter.mp ht
    have hold := hw.bound t hmem
    rcases hhomes with hsub | ⟨r, happ, _⟩
    · -- the account is still there, and it is the one of before
      obtain ⟨sa, hsa, hid⟩ := any_eq_true.mp hkept
      have hid' : sa.id = t.serviceAccountID := of_decide_eq_true hid
      have hhome : (sa.id, sa.tenantID) ∈
          homes (ServiceAccount.step env.text env.verified w.services a) :=
        mem_map_of_mem hsa
      have heq := hw.unique _ (hsub hhome) _ hold hid'
      show _ ∈ homes (ServiceAccount.step env.text env.verified w.services a)
      rw [← heq]
      exact hhome
    · show _ ∈ homes (ServiceAccount.step env.text env.verified w.services a)
      rw [happ]
      exact mem_append_left _ hold
  · obtain ⟨hkeys, hle⟩ := hw.cached e he
    exact ⟨hkeys, hle.trans hnow⟩

theorem checkAccount_ok {inp : CreateOIDCTrustInput} (h : checkAccount w inp = .ok ()) :
    (inp.serviceAccountID, inp.tenantID) ∈ homes w.services := by
  unfold checkAccount at h
  split_ifs at h
  cases hsa : getServiceAccount w inp.serviceAccountID with
  | none => simp [hsa] at h
  | some sa =>
    simp only [hsa] at h
    split_ifs at h with htenant _
    obtain ⟨hmem, hid⟩ := getServiceAccount_some hsa
    rw [← hid, ← not_not.mp htenant]
    exact mem_map_of_mem hmem

theorem validateOnCreate_ok {inp : CreateOIDCTrustInput}
    (h : validateOnCreate env w inp = .ok ()) : checkAccount w inp = .ok () := by
  unfold validateOnCreate at h
  split_ifs at h
  exact h

theorem Inv.createTrust (hw : Inv env w) (inp : CreateOIDCTrustInput) (id : String) :
    Inv env ((createTrust env w inp id).toOption.getD w) := by
  unfold WorkloadExchange.createTrust
  cases hvalid : validateOnCreate env w inp with
  | error c => exact hw
  | ok _ =>
    simp only
    split_ifs
    · exact hw
    · exact hw
    · refine ⟨hw.unique, fun t ht => ?_, hw.cached⟩
      rcases mem_cons.mp ht with rfl | hold
      · exact checkAccount_ok (validateOnCreate_ok hvalid)
      · exact hw.bound t hold

theorem Inv.updateTrust (hw : Inv env w) (inp : UpdateOIDCTrustInput) :
    Inv env ((updateTrust w inp).toOption.getD w) := by
  unfold WorkloadExchange.updateTrust
  split_ifs
  · exact hw
  · exact hw
  · exact hw
  cases hfind : w.trusts.find? inp.selects with
  | none => exact hw
  | some t =>
    simp only
    split_ifs
    · exact hw
    · refine ⟨hw.unique, fun t ht => ?_, hw.cached⟩
      obtain ⟨old, hold, rfl⟩ := mem_map.mp ht
      have hkeep : (inp.apply old).serviceAccountID = old.serviceAccountID ∧
          (inp.apply old).tenantID = old.tenantID := by
        unfold UpdateOIDCTrustInput.apply
        split_ifs <;> exact ⟨rfl, rfl⟩
      rw [hkeep.1, hkeep.2]
      exact hw.bound old hold

theorem Inv.deleteTrust (hw : Inv env w) (tenantID id : String) :
    Inv env ((deleteTrust w tenantID id).toOption.getD w) := by
  unfold WorkloadExchange.deleteTrust
  split_ifs
  · exact ⟨hw.unique, fun t ht => hw.bound t (mem_filter.mp ht).1, hw.cached⟩
  · exact hw

theorem Inv.exchange (hw : Inv env w) (raw : Bytes) (jti : String) :
    Inv env (exchangeWorkloadToken env w raw jti).2 := by
  have h := exchange_outcome hw.cached raw jti
  generalize exchangeWorkloadToken env w raw jti = r at h
  cases h with
  | failed e hcache => exact ⟨hw.unique, hw.bound, hcache⟩
  | granted tok t sa hcache _ => exact ⟨hw.unique, hw.bound, hcache⟩

theorem Inv.step (hw : Inv env w) (a : Action) : Inv env (step env w a) := by
  cases a with
  | service a => exact hw.serviceCall a
  | createTrust inp id => exact hw.createTrust inp id
  | updateTrust inp => exact hw.updateTrust inp
  | deleteTrust tenantID id => exact hw.deleteTrust tenantID id
  | exchange raw jti => exact hw.exchange raw jti

end Invariants

def start {Key : Type} (roles : Delegation.State) (now : Int) : World Key :=
  ⟨Lifecycle.start roles now, [], []⟩

theorem run_inv {Key : Type} (env : Env Key) (roles : Delegation.State) (now : Int)
    (acts : List Action) : Inv env (run (step env) (start roles now) acts) :=
  run_invariant (G := fun _ _ => True) (fun _ a hw _ => hw.step a) ⟨nofun, nofun, nofun⟩
    (guarded_of_forall (P := fun _ => True) fun _ _ => trivial)

/-- **Workload exchange is sound**, in every state the calls lead to. -/
theorem exchange_sound {Key : Type} (env : Env Key) (roles : Delegation.State) (now : Int)
    (acts : List Action) (raw : Bytes) (jti : String) (c : Claims)
    (h : (exchangeWorkloadToken env (run (step env) (start roles now) acts) raw jti).1 = .ok c) :
    ∃ tok t sa, Granted env (run (step env) (start roles now) acts) raw tok t sa ∧
      c.subject = sa.shadowUserID ∧ c.trustID = t.id ∧ c.tenantID = t.tenantID := by
  have hinv := run_inv env roles now acts
  generalize run (step env) (start roles now) acts = w at h hinv
  have hout := exchange_outcome hinv.cached raw jti
  generalize exchangeWorkloadToken env w raw jti = r at h hout
  cases hout with
  | failed => cases h
  | granted tok t sa _ hgrant =>
    cases h
    refine ⟨tok, t, sa, hgrant, rfl, rfl, ?_⟩
    have hhome : (sa.id, sa.tenantID) ∈ homes w.services := mem_map_of_mem hgrant.account
    have heq := hinv.unique _ hhome _ (hinv.bound t hgrant.trust) hgrant.bound
    exact (Prod.mk.inj heq).2

def workflowJWT : JWT :=
  ⟨"RS256", some "k1", some "https://ci", some "repo:a/b", .list [some "janus"], .ok (some 100),
    .ok none⟩

def ciEnv : Env Unit where
  text := plainText
  verified := fun _ => none
  allowedIssuers := ["https://ci"]
  parseUnverified := fun raw => if raw = [7] then some workflowJWT else none
  rs256 := fun _ raw => raw = [7]
  fetchJWKS := fun issuer _ =>
    if issuer = "https://ci" then some ⟨fun kid => if kid = "k1" then some () else none, rfl⟩
    else none

def trustBot : List Action :=
  [.service (ServiceAccount.createBot ["pull"]),
    .createTrust ⟨"t", "sa1", "ci", "https://ci", "janus", "repo:a/*", 0⟩ "trust1"]

theorem workflow_exchanged :
    ∃ tok t sa,
      Granted ciEnv (run (step ciEnv) (start ServiceAccount.worldOfAnn.roles 0) trustBot) [7]
        tok t sa ∧
      "shadow1" = sa.shadowUserID ∧ "trust1" = t.id ∧ "t" = t.tenantID :=
  exchange_sound ciEnv ServiceAccount.worldOfAnn.roles 0 trustBot [7] "j1"
    (issueWorkloadToken 0 "j1" "shadow1" "t" "trust1" (mapScopesToAccess ["pull"]))
    (by decide +kernel)

end OciJanus.Auth.WorkloadExchange
