import OciJanus.Management.Requests

/-!
# Machine credentials and the administration of tenants

`requirePlatformAdmin` turns machine credentials away; the two other gates look at roles alone.
-/

namespace OciJanus.Management.AdminGates

open Auth.ApiKey Auth.Roles Verified.Checks Verified.GoStrings

structure InviteUserRequestBody where
  (email displayName initialOrgRole initialOrgName : String)
  expiresInSecs : Int
  deriving DecidableEq

structure CreateOIDCTrustRequestBody where
  (serviceAccountID displayName issuerURL audience subjectPattern : String)
  jwksCacheTTLSeconds : Int
  deriving DecidableEq

structure UpdateOIDCTrustRequestBody where
  (displayName subjectPattern : String)
  jwksCacheTTLSeconds : Int
  deriving DecidableEq

structure PutTokenPolicyRequestBody where
  (maxTTLDays rotationIntervalDays idleRevokeDays : Option Int)
  requireMFA : Option Bool

inductive AdminCall where
  | listTenants (pageSize : Int) (pageToken : String)
  | getTenant (tenantID : String)
  | updateTenant (tenantID : String) (name plan : Option String)
  | listTenantUsers (tenantID : String) (pageSize : Int) (pageToken : String)
  | inviteUser (tenantID invitedBy : String) (body : InviteUserRequestBody)
  | setUserDisabled (tenantID userID : String) (disabled : Bool) (callerUserID : String)
  | grantRole (tenantID userID role scopeType scopeValue grantedBy : String)
  | listOIDCTrusts (tenantID : String)
  | createOIDCTrust (tenantID : String) (body : CreateOIDCTrustRequestBody)
  | updateOIDCTrust (id tenantID : String) (body : UpdateOIDCTrustRequestBody)
  | deleteOIDCTrust (id tenantID : String)
  | getTokenPolicy (tenantID : String)
  | putTokenPolicy (tenantID : String) (maxTTLDays rotationIntervalDays idleRevokeDays : Option Int)
      (requireMFA : Bool) (actorID : String)
  deriving DecidableEq

structure Service where
  auth : AuthService
  tenantWired : Bool
  currentRequireMFA : String → Except Response Bool

inductive Request where
  | listTenants (pageSize pageToken : String)
  | getTenant (tenantID : String)
  | updateTenant (tenantID : String) (body : Option (Option String × Option String))
  | listTenantUsers (pageSize pageToken : String)
  | inviteUser (body : Option InviteUserRequestBody)
  | setTenantUserDisabled (userID : String) (disabled : Bool)
  | elevateToOrgAdmin (userID org : String)
  | claimOrg (org : String)
  | listOIDCTrusts
  | createOIDCTrust (body : Option CreateOIDCTrustRequestBody)
  | updateOIDCTrust (id : String) (body : Option UpdateOIDCTrustRequestBody)
  | deleteOIDCTrust (id : String)
  | getTokenPolicy
  | putTokenPolicy (body : Option PutTokenPolicyRequestBody)

def matchesTenantNameRE (s : String) : Bool :=
  match s.toList with
  | c :: cs =>
    isLowerAlnum c && 1 ≤ cs.length && cs.length ≤ 63 && cs.all fun c => isLowerAlnum c || c == '-'
  | [] => false

def adminTenantPlans : List String := ["free", "pro", "enterprise"]

def sscanDigits : Int → List Char → Int
  | n, [] => n
  | n, c :: cs =>
    if !c.isDigit then n
    else
      let n' := n * 10 + (c.toNat - 48 : Nat)
      if 1000000 < n' then n' else sscanDigits n' cs

section Handlers

variable (svc : Service) (ctx : Context)

def requirePlatformAdmin : Except Response Unit := do
  require svc.tenantWired ⟨404, "route disabled"⟩
  require (ctx.principalKind ≠ principalKindServiceAccount) ⟨403, "platform-admin role required"⟩
  require (effectiveGlobalAdmin svc.auth ctx) ⟨403, "platform-admin role required"⟩

def requireTenantAdmin : Except Response Unit :=
  require (isTenantAdminOrPlatformAdmin svc.auth ctx) ⟨403, "tenant-admin role required"⟩

def handleAdminListTenants (pageSize pageToken : String) : Except Response AdminCall := do
  requirePlatformAdmin svc ctx
  return .listTenants (sscanDigits 0 pageSize.toList) pageToken

def handleAdminGetTenant (tenantID : String) : Except Response AdminCall := do
  requirePlatformAdmin svc ctx
  require (svc.auth.parseUUID tenantID).isSome ⟨400, "invalid tenant id"⟩
  return .getTenant tenantID

def handleAdminUpdateTenant (tenantID : String) (body : Option (Option String × Option String)) :
    Except Response AdminCall := do
  requirePlatformAdmin svc ctx
  require (svc.auth.parseUUID tenantID).isSome ⟨400, "invalid tenant id"⟩
  let (name, plan) ← found body ⟨400, "invalid request body"⟩
  require (name.isSome || plan.isSome) ⟨400, "at least one of name or plan is required"⟩
  require (name.all matchesTenantNameRE) ⟨400, "name must match ^[a-z0-9][a-z0-9-]\x7b1,63\x7d$"⟩
  require (plan.all (· ∈ adminTenantPlans)) ⟨400, "plan must be one of free, pro, enterprise"⟩
  return .updateTenant tenantID name plan

def userPageSize (s : String) : Except Response Int := do
  if s = "" then return 0
  let n ← found (parseInt 64 s) ⟨400, "page_size must be 1..200"⟩
  require (1 ≤ n && n ≤ 200) ⟨400, "page_size must be 1..200"⟩
  return n

def handleListTenantUsers (pageSize pageToken : String) : Except Response AdminCall := do
  requireTenantAdmin svc ctx
  let n ← userPageSize pageSize
  return .listTenantUsers ctx.tenantID n pageToken

def handleInviteUser (body : Option InviteUserRequestBody) : Except Response AdminCall := do
  requireTenantAdmin svc ctx
  let body ← found body ⟨400, "invalid request body"⟩
  require (body.email ≠ "") ⟨400, "email is required"⟩
  require (body.displayName ≠ "") ⟨400, "display_name is required"⟩
  require ((body.initialOrgRole = "" : Bool) == (body.initialOrgName = "" : Bool))
    ⟨400, "initial_org_role and initial_org_name must be set together"⟩
  return .inviteUser ctx.tenantID ctx.userID body

def setTenantUserDisabled (userID : String) (disabled : Bool) : Except Response AdminCall := do
  requireTenantAdmin svc ctx
  require (userID ≠ "") ⟨400, "user_id is required"⟩
  require (!(disabled && userID = ctx.userID)) ⟨400, "cannot disable yourself"⟩
  return .setUserDisabled ctx.tenantID userID disabled ctx.userID

def handleElevateToOrgAdmin (userID org : String) : Except Response AdminCall := do
  requireTenantAdmin svc ctx
  require (userID ≠ "") ⟨400, "user_id is required"⟩
  require (validateOrgName org) ⟨400, "invalid org name"⟩
  return .grantRole ctx.tenantID userID "admin" "org" org ctx.userID

def handleAdminClaimOrg (org : String) : Except Response AdminCall := do
  require (effectiveGlobalAdmin svc.auth ctx) ⟨403, "platform-admin role required"⟩
  require (validateOrgName org) ⟨400, "invalid org name"⟩
  return .grantRole ctx.tenantID ctx.userID "admin" "org" org ctx.userID

def handleListOIDCTrusts : Except Response AdminCall := do
  requireTenantAdmin svc ctx
  return .listOIDCTrusts ctx.tenantID

def handleCreateOIDCTrust (body : Option CreateOIDCTrustRequestBody) :
    Except Response AdminCall := do
  requireTenantAdmin svc ctx
  let body ← found body ⟨400, "invalid request body"⟩
  return .createOIDCTrust ctx.tenantID body

def handleUpdateOIDCTrust (id : String) (body : Option UpdateOIDCTrustRequestBody) :
    Except Response AdminCall := do
  requireTenantAdmin svc ctx
  require (id ≠ "") ⟨400, "id is required"⟩
  let body ← found body ⟨400, "invalid request body"⟩
  return .updateOIDCTrust id ctx.tenantID body

def handleDeleteOIDCTrust (id : String) : Except Response AdminCall := do
  requireTenantAdmin svc ctx
  require (id ≠ "") ⟨400, "id is required"⟩
  return .deleteOIDCTrust id ctx.tenantID

def handleGetTokenPolicy : Except Response AdminCall := do
  requireTenantAdmin svc ctx
  return .getTokenPolicy ctx.tenantID

def resolveRequireMFA : Option Bool → Except Response Bool
  | some b => .ok b
  | none => svc.currentRequireMFA ctx.tenantID

def handlePutTokenPolicy (body : Option PutTokenPolicyRequestBody) : Except Response AdminCall := do
  requireTenantAdmin svc ctx
  let body ← found body ⟨400, "invalid request body"⟩
  let requireMFA ← resolveRequireMFA svc ctx body.requireMFA
  return .putTokenPolicy ctx.tenantID body.maxTTLDays body.rotationIntervalDays body.idleRevokeDays
    requireMFA ctx.userID

def serve : Request → Except Response AdminCall
  | .listTenants pageSize pageToken => handleAdminListTenants svc ctx pageSize pageToken
  | .getTenant tenantID => handleAdminGetTenant svc ctx tenantID
  | .updateTenant tenantID body => handleAdminUpdateTenant svc ctx tenantID body
  | .listTenantUsers pageSize pageToken => handleListTenantUsers svc ctx pageSize pageToken
  | .inviteUser body => handleInviteUser svc ctx body
  | .setTenantUserDisabled userID disabled => setTenantUserDisabled svc ctx userID disabled
  | .elevateToOrgAdmin userID org => handleElevateToOrgAdmin svc ctx userID org
  | .claimOrg org => handleAdminClaimOrg svc ctx org
  | .listOIDCTrusts => handleListOIDCTrusts svc ctx
  | .createOIDCTrust body => handleCreateOIDCTrust svc ctx body
  | .updateOIDCTrust id body => handleUpdateOIDCTrust svc ctx id body
  | .deleteOIDCTrust id => handleDeleteOIDCTrust svc ctx id
  | .getTokenPolicy => handleGetTokenPolicy svc ctx
  | .putTokenPolicy body => handlePutTokenPolicy svc ctx body

def handle (authorization : String) (req : Request) : Except Response AdminCall :=
  match requireAuth svc.auth authorization with
  | .error r => .error r
  | .ok ctx => serve svc ctx req

end Handlers

def Machine (a : AuthService) (authorization : String) : Prop :=
  ∃ token, extract authorization = some token ∧
    ((parseAPIKeyBearer a.parseUUID token).isSome = true ∨
      parsePrincipalKindFromJWT token = principalKindServiceAccount)

def Administrator (a : AuthService) (ctx : Context) : Prop :=
  ∃ p, a.getUserPermissions ctx.userID ctx.tenantID = some p ∧ (p.isGlobalAdmin = true ∨
      ∃ g ∈ p.roleAssignments, roleIndex "admin" ≤ roleIndex g.roleName ∧
        g.scope = ⟨.tenant, ctx.tenantID⟩)

variable {svc : Service} {ctx : Context}

theorem covers_tenant_iff (granted : Scope) (tenantID : String) :
    covers granted ⟨.tenant, tenantID⟩ = true ↔ granted = ⟨.tenant, tenantID⟩ := by
  simp [covers]

variable {a : AuthService} {authorization : String} {call : AdminCall}

theorem effectiveGlobalAdmin_iff : effectiveGlobalAdmin a ctx = true ↔ Administrator a ctx := by
  unfold effectiveGlobalAdmin Administrator
  have hknown : 0 ≤ roleIndex "admin" := by decide
  cases a.getUserPermissions ctx.userID ctx.tenantID with
  | none => simp
  | some p =>
    simp only [hasScopedRole, Bool.or_eq_true, Bool.and_eq_true, decide_eq_true_eq, hknown,
      true_and, List.any_eq_true, covers_tenant_iff, Option.some.injEq, exists_eq_left']

theorem requireAuth_machine
    (hauth : requireAuth a authorization = .ok ctx) (hmachine : Machine a authorization) :
    ctx.principalKind = principalKindServiceAccount := by
  obtain ⟨token, htoken, hkind⟩ := hmachine
  simp only [requireAuth, htoken, found_bind_eq_ok_iff, Option.some.injEq, exists_eq_left'] at hauth
  cases hparse : parseAPIKeyBearer a.parseUUID token with
  | some p =>
    simp only [hparse, found_bind_eq_ok_iff, pure_eq_ok_iff] at hauth
    obtain ⟨key, _, rfl⟩ := hauth
    rfl
  | none =>
    simp only [hparse, found_bind_eq_ok_iff, require_bind_eq_ok_iff, pure_eq_ok_iff] at hauth
    obtain ⟨resp, _, _, rfl⟩ := hauth
    have htokenKind : parsePrincipalKindFromJWT token = principalKindServiceAccount := by
      rcases hkind with hkey | hjwt
      · rw [hparse] at hkey
        cases hkey
      · exact hjwt
    show (if parsePrincipalKindFromJWT token = "" then _ else _) = _
    rw [htokenKind]
    rfl

theorem requirePlatformAdmin_ok {f : Unit → Except Response AdminCall}
    (h : (requirePlatformAdmin svc ctx >>= f) = .ok call) :
    ctx.principalKind ≠ principalKindServiceAccount ∧ effectiveGlobalAdmin svc.auth ctx = true := by
  obtain ⟨_, hgate, _⟩ := bind_eq_ok h
  simp only [requirePlatformAdmin, require_bind_eq_ok_iff, require_eq_ok_iff, decide_eq_true_eq]
    at hgate
  exact hgate.2

theorem requireTenantAdmin_ok {f : Unit → Except Response AdminCall}
    (h : (requireTenantAdmin svc ctx >>= f) = .ok call) :
    effectiveGlobalAdmin svc.auth ctx = true := by
  simp only [requireTenantAdmin, require_bind_eq_ok_iff, isTenantAdminOrPlatformAdmin_eq] at h
  exact h.1

def Request.forPlatform : Request → Bool
  | .listTenants .. | .getTenant .. | .updateTenant .. => true
  | _ => false

theorem platform_gate_refuses (hkind : ctx.principalKind = principalKindServiceAccount)
    {req : Request} (hreq : req.forPlatform = true) (call : AdminCall) :
    serve svc ctx req ≠ .ok call := by
  intro h
  cases req with
  | listTenants pageSize pageToken => exact (requirePlatformAdmin_ok h).1 hkind
  | getTenant tenantID => exact (requirePlatformAdmin_ok h).1 hkind
  | updateTenant tenantID body => exact (requirePlatformAdmin_ok h).1 hkind
  | _ => cases hreq

theorem administrator_of_serve {req : Request}
    (h : serve svc ctx req = .ok call) : Administrator svc.auth ctx := by
  apply effectiveGlobalAdmin_iff.mp
  cases req with
  | listTenants | getTenant | updateTenant => exact (requirePlatformAdmin_ok h).2
  | claimOrg org =>
    simp only [serve, handleAdminClaimOrg, require_bind_eq_ok_iff] at h
    exact h.1
  | listTenantUsers | inviteUser | setTenantUserDisabled | elevateToOrgAdmin
  | listOIDCTrusts | createOIDCTrust | updateOIDCTrust | deleteOIDCTrust | getTokenPolicy
  | putTokenPolicy => exact requireTenantAdmin_ok h

theorem serve_claimOrg (h : Administrator svc.auth ctx) {org : String}
    (horg : validateOrgName org = true) :
    serve svc ctx (.claimOrg org) =
      .ok (.grantRole ctx.tenantID ctx.userID "admin" "org" org ctx.userID) := by
  simp only [serve, handleAdminClaimOrg, require_bind_eq_ok_iff]
  exact ⟨effectiveGlobalAdmin_iff.mpr h, horg, rfl⟩

theorem handle_of_auth (hauth : requireAuth svc.auth authorization = .ok ctx) (req : Request) :
    handle svc authorization req = serve svc ctx req := by
  rw [handle, hauth]

/-- **When machine credentials never administer.** -/
theorem machine_never_administers_iff (svc : Service) (authorization : String) (ctx : Context)
    (hauth : requireAuth svc.auth authorization = .ok ctx)
    (hmachine : Machine svc.auth authorization) :
    (∀ req call, req.forPlatform = true → handle svc authorization req ≠ .ok call) ∧
      ((∀ req call, handle svc authorization req ≠ .ok call) ↔ ¬ Administrator svc.auth ctx) := by
  simp only [handle_of_auth hauth]
  constructor
  · intro req call hreq
    exact platform_gate_refuses (requireAuth_machine hauth hmachine) hreq call
  constructor
  · intro hnever hadmin
    exact hnever (.claimOrg "acme") _ (serve_claimOrg hadmin (by decide))
  · intro hnot req call hserve
    exact hnot (administrator_of_serve hserve)

theorem machine_of_keyAuth {key : ValidatedKey}
    (hkey : KeyAuth a authorization key) : Machine a authorization := by
  obtain ⟨token, keyID, secret, htoken, hparse, _⟩ := hkey
  exact ⟨token, htoken, Or.inl (by rw [hparse]; rfl)⟩

def sampleService (role : String) : Service where
  auth := sampleAuth role ⟨.tenant, sampleTenant⟩
  tenantWired := true
  currentRequireMFA _ := .ok false

theorem key_claims_org :
    Machine (sampleService "admin").auth sampleHeader ∧
      handle (sampleService "admin") sampleHeader (.claimOrg "acme") =
        .ok (.grantRole sampleTenant sampleUser "admin" "org" "acme" sampleUser) ∧
      handle (sampleService "admin") sampleHeader
          (.inviteUser (some ⟨"eve@acme.io", "eve", "", "", 0⟩)) =
        .ok (.inviteUser sampleTenant sampleUser ⟨"eve@acme.io", "eve", "", "", 0⟩) ∧
      handle (sampleService "admin") sampleHeader (.setTenantUserDisabled "bob" true) =
        .ok (.setUserDisabled sampleTenant "bob" true sampleUser) ∧
      handle (sampleService "admin") sampleHeader (.elevateToOrgAdmin "eve" "acme") =
        .ok (.grantRole sampleTenant "eve" "admin" "org" "acme" sampleUser) := by
  have hkey := sample_keyAuth "admin" ⟨.tenant, sampleTenant⟩
  have hauth : requireAuth (sampleService "admin").auth sampleHeader = .ok (keyContext pullKey) :=
    requireAuth_key hkey
  simp only [handle_of_auth hauth]
  exact ⟨machine_of_keyAuth hkey, by decide +kernel⟩

theorem key_of_writer_refused :
    Machine (sampleService "writer").auth sampleHeader ∧
      ∀ req call, handle (sampleService "writer") sampleHeader req ≠ .ok call := by
  have hkey := sample_keyAuth "writer" ⟨.tenant, sampleTenant⟩
  refine ⟨machine_of_keyAuth hkey, ?_⟩
  have hnot : effectiveGlobalAdmin (sampleService "writer").auth (keyContext pullKey) ≠ true := by
    decide +kernel
  apply (machine_never_administers_iff (sampleService "writer") sampleHeader (keyContext pullKey)
    (requireAuth_key hkey) (machine_of_keyAuth hkey)).2.mpr
  rw [← effectiveGlobalAdmin_iff]
  exact hnot

end OciJanus.Management.AdminGates
