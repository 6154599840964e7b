import OciJanus.Auth.ApiKey
import OciJanus.Auth.Delegation
import OciJanus.Verified.Checks
import OciJanus.Verified.CompactJwt

/-!
# Requests to the management API

The middleware, the validators of names, and the gates over role assignments.
-/

namespace OciJanus.Management

open Auth.ApiKey (Tables ValidatedKey validateAPIKey)
open Auth.Delegation (State getUserByID getUserRoles)
open Verified Checks CompactJwt ExpiringStore GoStrings Auth.Roles Auth.Token List
open Verified.Json (foldName stringField)
open Verified.Sha256 (Bytes)
open Verified.Utf8

structure AuthService where
  tables : Tables
  argon2 : String → String → Option Bool
  verifiedSecret : String → String → Bool
  state : State
  signed : Bytes → Option Claims
  redis : Redis
  now : Int
  parseUUID : String → Option String

namespace AuthService

variable (a : AuthService)

def validateKey (keyID rawSecret : String) : Option ValidatedKey :=
  (validateAPIKey a.argon2 a.tables (a.verifiedSecret keyID rawSecret) ⟨keyID, rawSecret, none⟩
    a.now).toOption

def validateToken (token : String) : Option ValidateTokenResponse :=
  (validateTokenRPC a.signed a.redis a.now (stringBytes token)).toOption

structure UserPermissions where
  isGlobalAdmin : Bool
  roleAssignments : List RoleAssignment

def getUserPermissions (userID tenantID : String) : Option UserPermissions := do
  let userID ← a.parseUUID userID
  let tenantID ← a.parseUUID tenantID
  let user ← getUserByID a.state userID
  return ⟨user.isGlobalAdmin, getUserRoles a.state userID tenantID⟩

end AuthService

structure Context where
  (tenantID userID principalKind : String)

structure Response where
  status : Nat
  error : String
  deriving DecidableEq

def principalKindHuman : String := "human"

def principalKindServiceAccount : String := "service_account"

def extract (authHeader : String) : Option String :=
  let scheme := authHeader.toList.take 6
  match authHeader.toList.drop 6 with
  | sep :: rest =>
    let token := rest.dropWhile fun c => c == ' ' || c == '\t'
    if foldName (String.ofList scheme) = foldName "Bearer" ∧ (sep = ' ' ∨ sep = '\t') ∧
        token ≠ [] then
      some (String.ofList token)
    else none
  | [] => none

def parseAPIKeyBearer (parseUUID : String → Option String) (token : String) :
    Option (String × String) :=
  if hasPrefix token "key." then
    match cut '.' (trimPrefix token "key.") with
    | some (idStr, secret) =>
      if secret = "" then none else (parseUUID idStr).map fun id => (id, secret)
    | none => none
  else none

def parsePrincipalKindFromJWT (token : String) : String :=
  match segments (stringBytes token) with
  | _ :: payload :: _ =>
    ((base64UrlDecode payload).bind (stringField "principal_kind")).getD ""
  | _ => ""

def tokenContext (token : String) (resp : ValidateTokenResponse) : Context :=
  let kind := parsePrincipalKindFromJWT token
  ⟨resp.tenantID, resp.userID, if kind = "" then principalKindHuman else kind⟩

def keyContext (key : ValidatedKey) : Context :=
  ⟨key.tenantID, key.userID, principalKindServiceAccount⟩

def requireAuth (a : AuthService) (authorization : String) : Except Response Context := do
  let token ← found (extract authorization) ⟨401, "missing authorization"⟩
  match parseAPIKeyBearer a.parseUUID token with
  | some (keyID, secret) =>
    let key ← found (a.validateKey keyID secret) ⟨401, "invalid or expired token"⟩
    return keyContext key
  | none =>
    let resp ← found (a.validateToken token) ⟨401, "invalid or expired token"⟩
    require resp.valid ⟨401, "invalid or expired token"⟩
    return tokenContext token resp

def KeyAuth (a : AuthService) (authorization : String) (key : ValidatedKey) : Prop :=
  ∃ token keyID secret, extract authorization = some token ∧
    parseAPIKeyBearer a.parseUUID token = some (keyID, secret) ∧
    a.validateKey keyID secret = some key

theorem requireAuth_key {a : AuthService} {authorization : String} {key : ValidatedKey}
    (h : KeyAuth a authorization key) : requireAuth a authorization = .ok (keyContext key) := by
  obtain ⟨token, keyID, secret, htoken, hparse, hkey⟩ := h
  simp only [requireAuth, htoken, found_bind_eq_ok_iff, Option.some.injEq, exists_eq_left', hparse,
    hkey, pure_eq_ok_iff]

def isLowerAlnum (c : Char) : Bool := c.isDigit || ('a' ≤ c && c ≤ 'z')

def validateOrgName (s : String) : Bool :=
  2 ≤ s.toList.length && s.toList.length ≤ 64 && s.toList.all fun c => isLowerAlnum c || c == '-'

def validateRepoName (s : String) : Bool :=
  byteLen s ≤ 128 && (s.toList.splitOnP fun c => c == '.' || c == '_' || c == '-').all fun part =>
      part ≠ [] && part.all isLowerAlnum

def isTagChar (c : Char) : Bool :=
  c.isAlphanum || c == '_' || c == '.' || c == '-'

def validateTagName (s : String) : Bool :=
  match s.toList with
  | c :: cs => (c.isAlphanum || c == '_') && cs.length ≤ 127 && cs.all isTagChar
  | [] => false

def roleHierarchy : List String := ["reader", "writer", "admin", "owner"]

def roleIndex (role : String) : Int :=
  match roleHierarchy.findIdx? (· = role) with
  | some i => i
  | none => -1

def covers (granted target : Scope) : Bool :=
  granted = target ||
    (target.type = .repo && granted.type = .org && hasPrefix target.value (granted.value ++ "/"))

def hasScopedRole (assignments : List RoleAssignment) (target : Scope) (minimum : String) : Bool :=
  0 ≤ roleIndex minimum &&
    assignments.any fun g => roleIndex minimum ≤ roleIndex g.roleName && covers g.scope target

def repoScope (org repo : String) : Scope := ⟨.repo, org ++ "/" ++ repo⟩

theorem validateOrgName_slash {s : String} (h : validateOrgName s = true) : '/' ∉ s.toList := by
  intro hmem
  simp only [validateOrgName, Bool.and_eq_true, all_eq_true] at h
  have hchar := h.2 '/' hmem
  revert hchar
  decide

theorem validateRepoName_slash {s : String} (h : validateRepoName s = true) : '/' ∉ s.toList := by
  intro hmem
  simp only [validateRepoName, Bool.and_eq_true, all_eq_true] at h
  obtain ⟨part, hpart, hchar⟩ :=
    exists_mem_splitOnP (p := fun c => c == '.' || c == '_' || c == '-') (by decide) hmem
  have halnum := (h.2 part hpart).2 '/' hchar
  revert halnum
  decide

theorem covers_repo_iff {org repo : String} (horg : validateOrgName org = true)
    (hrepo : validateRepoName repo = true) (granted : Scope) :
    covers granted (repoScope org repo) = true ↔
      granted = repoScope org repo ∨ granted = ⟨.org, org⟩ := by
  have horg' := validateOrgName_slash horg
  have hrepo' := validateRepoName_slash hrepo
  simp only [covers, repoScope, Bool.or_eq_true, Bool.and_eq_true, decide_eq_true_eq, true_and]
  apply or_congr decide_eq_true_iff
  constructor
  · rintro ⟨htype, hpre⟩
    obtain ⟨rest, hrest⟩ := hasPrefix_iff.mp hpre
    have htext := congrArg String.toList hrest
    simp only [String.toList_append, append_assoc] at htext
    change org.toList ++ '/' :: repo.toList = granted.value.toList ++ '/' :: rest.toList at htext
    -- the only slash is the one between the two names
    have hcount := congrArg (List.count '/') htext
    simp only [count_append, count_cons_self, count_eq_zero.mpr horg',
      count_eq_zero.mpr hrepo'] at hcount
    have hrest' : '/' ∉ rest.toList := count_eq_zero.mp (by omega)
    have hvalue := String.toList_inj.mp (append_segment_inj hrepo' hrest' htext).1
    obtain ⟨type, value⟩ := granted
    exact congrArg₂ Scope.mk htype hvalue.symm
  · intro hgranted
    rw [hgranted]
    exact ⟨rfl, hasPrefix_iff.mpr ⟨repo, rfl⟩⟩

variable (a : AuthService) (ctx : Context)

def getUserAssignments : List RoleAssignment :=
  match a.getUserPermissions ctx.userID ctx.tenantID with
  | some p => p.roleAssignments
  | none => []

def effectiveGlobalAdmin : Bool :=
  match a.getUserPermissions ctx.userID ctx.tenantID with
  | some p => p.isGlobalAdmin || hasScopedRole p.roleAssignments ⟨.tenant, ctx.tenantID⟩ "admin"
  | none => false

def isTenantAdminOrPlatformAdmin : Bool :=
  effectiveGlobalAdmin a ctx ||
    hasScopedRole (getUserAssignments a ctx) ⟨.tenant, ctx.tenantID⟩ "admin"

theorem isTenantAdminOrPlatformAdmin_eq :
    isTenantAdminOrPlatformAdmin a ctx = effectiveGlobalAdmin a ctx := by
  unfold isTenantAdminOrPlatformAdmin effectiveGlobalAdmin getUserAssignments
  cases a.getUserPermissions ctx.userID ctx.tenantID with
  | none => rfl
  | some p =>
    show ((_ || hasScopedRole _ _ _) || hasScopedRole _ _ _) = _
    rw [Bool.or_assoc, Bool.or_self]

def sampleUser : String := "00000000-0000-4000-8000-000000000001"

def sampleTenant : String := "00000000-0000-4000-8000-000000000002"

def sampleKeyID : String := "00000000-0000-4000-8000-00000000000a"

def sampleTables : Tables where
  apiKeys id :=
    if id = sampleKeyID then
      some ⟨sampleKeyID, sampleTenant, some sampleUser, none, "ci", "hash", ["pull"], none, true⟩
    else none
  serviceAccounts _ := none

def sampleParseUUID (s : String) : Option String := if s.length = 36 then some s else none

def sampleArgon2 (secret _hash : String) : Option Bool := some (secret = "s3cret")

def sampleAuth (role : String) (scope : Scope) : AuthService where
  tables := sampleTables
  argon2 := sampleArgon2
  verifiedSecret _ _ := false
  state :=
    ⟨[⟨sampleUser, sampleTenant, "ann", "ann@acme.io", "human", false⟩],
      [⟨"g1", sampleTenant, sampleUser, role, scope, sampleUser⟩]⟩
  signed _ := none
  redis := Store.empty
  now := 0
  parseUUID := sampleParseUUID

def pullKey : ValidatedKey :=
  ⟨sampleUser, sampleTenant, [⟨"repository", "*", ["pull"]⟩], "human", none, ["pull"]⟩

def sampleHeader : String := "Bearer key." ++ sampleKeyID ++ ".s3cret"

theorem sample_keyAuth (role : String) (scope : Scope) :
    KeyAuth (sampleAuth role scope) sampleHeader pullKey := by
  refine ⟨"key." ++ sampleKeyID ++ ".s3cret", sampleKeyID, "s3cret", by decide +kernel, ?_, ?_⟩
  · show parseAPIKeyBearer sampleParseUUID _ = _
    decide +kernel
  · show (validateAPIKey sampleArgon2 sampleTables false _ 0).toOption = _
    decide +kernel

end OciJanus.Management
