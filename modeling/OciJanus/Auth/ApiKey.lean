import OciJanus.Auth.Token
import OciJanus.Verified.GoStrings

/-!
# API keys and the Docker token endpoint

`ValidateAPIKey` with both of its paths, and `HTTPHandler.token`.
-/

namespace OciJanus.Auth.ApiKey

open Auth.Token Verified.GoStrings

structure APIKey where
  (id tenantID : String)
  (userID serviceAccountID : Option String)
  (name keyHash : String)
  scopes : List String
  expiresAt : Option Int
  isActive : Bool

structure ServiceAccount where
  (id tenantID shadowUserID name : String)
  allowedScopes : List String
  disabledAt : Option Int
  deriving DecidableEq

structure Tables where
  apiKeys : String → Option APIKey
  serviceAccounts : String → Option ServiceAccount

structure ValidatedKey where
  (userID tenantID : String)
  access : List RepositoryAccess
  principalKind : String
  serviceAccountID : Option String
  effectiveScopes : List String
  deriving DecidableEq

inductive KeyError where
  | invalidCredentials
  | keyExpired
  | accountDisabled
  | verifyKey
  | nullOwner
  | scopesRemoved
  deriving DecidableEq

structure ValidateAPIKeyOpts where
  (keyID rawSecret : String)
  requestTenantID : Option String

def intersectScopes (a b : List String) : List String := a.filter (· ∈ b)

def mapScopesToAccess : List String → List RepositoryAccess
  | [] => []
  | scopes => [⟨"repository", "*", scopes⟩]

def checkRow (key : APIKey) (now : Int) : Except KeyError Unit :=
  if key.expiresAt.any (fun e => decide (e < now)) then .error .keyExpired
  else if key.isActive then .ok ()
  else .error .invalidCredentials

def validateSAKey (t : Tables) (key : APIKey) (saID : String)
    (requestTenantID : Option String) : Except KeyError ValidatedKey :=
  match t.serviceAccounts saID with
  | none => .error .invalidCredentials
  | some sa =>
    if sa.disabledAt.isSome then .error .accountDisabled
    else if requestTenantID.any (· ≠ sa.tenantID) then .error .invalidCredentials
    else
      match intersectScopes key.scopes sa.allowedScopes with
      | [] => .error .scopesRemoved
      | eff =>
        .ok ⟨sa.shadowUserID, sa.tenantID, mapScopesToAccess eff, "service_account",
          some sa.id, eff⟩

def humanKey (key : APIKey) (userID : String) : ValidatedKey :=
  ⟨userID, key.tenantID, mapScopesToAccess key.scopes, "human", none, key.scopes⟩

def ownerBranch (t : Tables) (key : APIKey) (requestTenantID : Option String) :
    Option (Except KeyError ValidatedKey) :=
  match key.serviceAccountID, key.userID with
  | some saID, _ => some (validateSAKey t key saID requestTenantID)
  | none, some u => some (.ok (humanKey key u))
  | none, none => none

def applyKeyChecksFromCache (t : Tables) (key : APIKey) (requestTenantID : Option String)
    (now : Int) : Option (Except KeyError ValidatedKey) :=
  if key.expiresAt.any (fun e => decide (e < now)) then some (.error .keyExpired)
  else if !key.isActive then some (.error .invalidCredentials)
  else
    match key.serviceAccountID, key.userID with
    | some saID, _ =>
      match t.serviceAccounts saID with
      | none => some (.error .invalidCredentials)
      | some sa =>
        if sa.disabledAt.isSome then some (.error .accountDisabled)
        else if requestTenantID.any (· ≠ sa.tenantID) then some (.error .invalidCredentials)
        else
          match intersectScopes key.scopes sa.allowedScopes with
          | [] => some (.error .scopesRemoved)
          | eff =>
            some (.ok ⟨sa.shadowUserID, sa.tenantID, mapScopesToAccess eff, "service_account",
              some sa.id, eff⟩)
    | none, some u =>
      some (.ok ⟨u, key.tenantID, mapScopesToAccess key.scopes, "human", none, key.scopes⟩)
    | none, none => none

def validateCold (argon2 : String → String → Option Bool) (t : Tables) (key : APIKey)
    (opts : ValidateAPIKeyOpts) (now : Int) : Except KeyError ValidatedKey :=
  match argon2 opts.rawSecret key.keyHash with
  | none => .error .verifyKey
  | some false => .error .invalidCredentials
  | some true =>
    match checkRow key now with
    | .error e => .error e
    | .ok () => (ownerBranch t key opts.requestTenantID).getD (.error .nullOwner)

def validateAPIKey (argon2 : String → String → Option Bool) (t : Tables) (hit : Bool)
    (opts : ValidateAPIKeyOpts) (now : Int) : Except KeyError ValidatedKey :=
  match t.apiKeys opts.keyID with
  | none => .error .invalidCredentials
  | some key =>
    match if hit then applyKeyChecksFromCache t key opts.requestTenantID now else none with
    | some result => result
    | none => validateCold argon2 t key opts now

inductive Entitled (t : Tables) (key : APIKey) (vk : ValidatedKey) : Prop where
  | human (u : String) (owner : key.serviceAccountID = none) (user : key.userID = some u)
      (eq : vk = humanKey key u)
  | account (saID : String) (sa : ServiceAccount) (owner : key.serviceAccountID = some saID)
      (row : t.serviceAccounts saID = some sa) (enabled : sa.disabledAt = none)
      (user : vk.userID = sa.shadowUserID) (tenant : vk.tenantID = sa.tenantID)
      (kind : vk.principalKind = "service_account")
      (scopes : vk.effectiveScopes = intersectScopes key.scopes sa.allowedScopes)
      (nonempty : vk.effectiveScopes ≠ [])

variable {t : Tables} {vk : ValidatedKey} {argon2 : String → String → Option Bool} {hit : Bool}
    {now : Int}

theorem validateSAKey_ok {key : APIKey} {saID : String}
    {req : Option String} (howner : key.serviceAccountID = some saID)
    (h : validateSAKey t key saID req = .ok vk) : Entitled t key vk := by
  unfold validateSAKey at h
  cases hrow : t.serviceAccounts saID with
  | none =>
    rw [hrow] at h
    cases h
  | some sa =>
    simp only [hrow] at h
    split_ifs at h with hdis hreq
    cases heff : intersectScopes key.scopes sa.allowedScopes with
    | nil =>
      rw [heff] at h
      cases h
    | cons x xs =>
      rw [heff] at h
      cases h
      have henabled : sa.disabledAt = none := by simpa using hdis
      exact .account saID sa howner hrow henabled rfl rfl rfl heff.symm (by simp)

theorem ownerBranch_ok {key : APIKey} {req : Option String}
    (h : ownerBranch t key req = some (.ok vk)) : Entitled t key vk := by
  unfold ownerBranch at h
  cases hsa : key.serviceAccountID with
  | some saID =>
    simp only [hsa, Option.some.injEq] at h
    exact validateSAKey_ok hsa h
  | none =>
    cases hu : key.userID with
    | none => simp [hsa, hu] at h
    | some u =>
      simp only [hsa, hu, Option.some.injEq, Except.ok.injEq] at h
      exact .human u hsa hu h.symm

theorem applyKeyChecksFromCache_eq {key : APIKey} {req : Option String} :
    applyKeyChecksFromCache t key req now =
      match checkRow key now with
      | .error e => some (.error e)
      | .ok () => ownerBranch t key req := by
  unfold applyKeyChecksFromCache checkRow
  by_cases hexpired : key.expiresAt.any (fun e => decide (e < now))
  · simp only [hexpired, if_true]
  · simp only [hexpired, if_false, Bool.false_eq_true]
    cases key.isActive with
    | false => rfl
    | true =>
      simp only [Bool.not_true, Bool.false_eq_true, if_false, if_true, ownerBranch]
      cases key.serviceAccountID with
      | none => cases key.userID <;> rfl
      | some saID =>
        simp only [validateSAKey]
        cases t.serviceAccounts saID with
        | none => rfl
        | some sa =>
          dsimp only
          split_ifs
          · rfl
          · rfl
          · cases intersectScopes key.scopes sa.allowedScopes <;> rfl

theorem validateAPIKey_ok {opts : ValidateAPIKeyOpts}
    (h : validateAPIKey argon2 t hit opts now = .ok vk) :
    ∃ key, t.apiKeys opts.keyID = some key ∧ Entitled t key vk := by
  unfold validateAPIKey at h
  cases hkey : t.apiKeys opts.keyID with
  | none =>
    rw [hkey] at h
    cases h
  | some key =>
    refine ⟨key, rfl, ?_⟩
    simp only [hkey] at h
    split at h
    · rename_i result hres
      subst h
      cases hit with
      | false => cases hres
      | true =>
        simp only [if_true, applyKeyChecksFromCache_eq] at hres
        split at hres
        · cases hres
        · exact ownerBranch_ok hres
    · unfold validateCold at h
      split at h
      · cases h
      · cases h
      · split at h
        · cases h
        · cases hown : ownerBranch t key opts.requestTenantID with
          | none =>
            rw [hown] at h
            cases h
          | some result =>
            rw [hown] at h
            cases h
            exact ownerBranch_ok hown

def entitledScopes (t : Tables) (keyID : String) : List String :=
  match t.apiKeys keyID with
  | none => []
  | some key =>
    match key.serviceAccountID with
    | none => key.scopes
    | some saID =>
      match t.serviceAccounts saID with
      | none => []
      | some sa => intersectScopes key.scopes sa.allowedScopes

theorem validateAPIKey_effectiveScopes {opts : ValidateAPIKeyOpts}
    (h : validateAPIKey argon2 t hit opts now = .ok vk) :
    vk.effectiveScopes = entitledScopes t opts.keyID := by
  obtain ⟨key, hkey, hent⟩ := validateAPIKey_ok h
  cases hent with
  | human u howner huser heq => simp [entitledScopes, hkey, howner, heq, humanKey]
  | account saID sa howner hrow _ _ _ _ hscopes _ =>
    simp [entitledScopes, hkey, howner, hrow, hscopes]

def parseScope (s : String) : Option RepositoryAccess := do
  let (type, rest) ← cut ':' s
  let (name, actions) ← cut ':' rest
  match (splitOn ',' actions).filter (· ≠ "") with
  | [] => none
  | actions => some ⟨type, name, actions⟩

def parseScopes (scopeParams : List String) : List RepositoryAccess :=
  scopeParams.flatMap fun param => (fields param).filterMap parseScope

def token (argon2 : String → String → Option Bool) (t : Tables) (hit : Bool)
    (keyID rawSecret : String) (scopeParams : List String) (now : Int) (jti : String) :
    Except KeyError Claims :=
  match validateAPIKey argon2 t hit ⟨keyID, rawSecret, none⟩ now with
  | .error e => .error e
  | .ok vk =>
    .ok (issueToken now jti vk.userID vk.tenantID (parseScopes scopeParams) [] false
      vk.principalKind [] "")

theorem token_ok_access
    {keyID rawSecret : String} {params : List String} {jti : String} {c : Claims}
    (h : token argon2 t hit keyID rawSecret params now jti = .ok c) :
    c.access = parseScopes params := by
  unfold token at h
  split at h
  · cases h
  · cases h
    rfl

end OciJanus.Auth.ApiKey
