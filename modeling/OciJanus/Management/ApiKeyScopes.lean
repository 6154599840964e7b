import OciJanus.Management.Requests

/-!
# The scopes of an API key

The middleware keeps the key's owner and drops the scopes. A handler is followed up to its call.
-/

namespace OciJanus.Management.ApiKeyScopes

open Auth.ApiKey
open Auth.Delegation (State)
open Auth.Roles Verified.Checks Verified.GoStrings

inductive MetaCall where
  | deleteTag (repoID tenantID name : String)
  | deleteRepository (repoID tenantID : String)
  | promoteTag (tenantID srcOrg srcRepo srcTag dstOrg dstRepo dstTag actorUserID note : String)
      (createIfMissing : Bool)
  | renameRepository (tenantID repoID newName : String)
  deriving DecidableEq

def MetaCall.scope : MetaCall → String
  | .deleteTag .. => "delete"
  | .deleteRepository .. => "delete"
  | .promoteTag .. => "push"
  | .renameRepository .. => "admin"

structure Service where
  auth : AuthService
  repoByName : String → String → Option String
  succeeds : MetaCall → Bool
  signerWired : Bool

structure PromoteRequest where
  (dstOrg dstRepo dstTag note : String)
  (createIfMissing reSignOnPromote : Bool)

inductive Request where
  | deleteTag (org repo tag : String)
  | deleteRepository (org repo : String)
  | promoteTag (org repo tag : String) (body : Option PromoteRequest)
  | renameRepository (org repo : String) (newName : Option String)

def promoteMaxNote : Nat := 256

section Handlers

variable (svc : Service) (ctx : Context)

def hasRepoRole (org repo minimum : String) : Bool :=
  hasScopedRole (getUserAssignments svc.auth ctx) (repoScope org repo) minimum

def findRepo (org repo : String) : Except Response String :=
  found (svc.repoByName ctx.tenantID (org ++ "/" ++ repo)) ⟨404, "repository not found"⟩

def handleDeleteTag (org repo tag : String) : Except Response MetaCall := do
  require (validateOrgName org) ⟨400, "invalid org name"⟩
  require (validateRepoName repo) ⟨400, "invalid repository name"⟩
  require (validateTagName tag) ⟨400, "invalid tag name"⟩
  require (hasRepoRole svc ctx org repo "writer") ⟨403, "insufficient permissions"⟩
  let repoID ← findRepo svc ctx org repo
  return .deleteTag repoID ctx.tenantID tag

def deletingRepository {β : Type} (org repo : String) (delete : String → Except Response β) :
    Except Response β := do
  require (validateOrgName org) ⟨400, "invalid org name"⟩
  require (validateRepoName repo) ⟨400, "invalid repository name"⟩
  require (hasRepoRole svc ctx org repo "admin") ⟨403, "insufficient permissions"⟩
  let repoID ← findRepo svc ctx org repo
  delete repoID

def handleDeleteRepository (org repo : String) : Except Response MetaCall :=
  deletingRepository svc ctx org repo fun repoID => return .deleteRepository repoID ctx.tenantID

def handlePromoteTag (org repo tag : String) (body : Option PromoteRequest) :
    Except Response MetaCall := do
  require (validateOrgName org) ⟨400, "invalid src org name"⟩
  require (validateRepoName repo) ⟨400, "invalid src repository name"⟩
  require (validateTagName tag) ⟨400, "invalid src tag name"⟩
  let body ← found body ⟨400, "invalid request body"⟩
  require (validateOrgName body.dstOrg) ⟨400, "invalid dst org name"⟩
  require (validateRepoName body.dstRepo) ⟨400, "invalid dst repository name"⟩
  require (validateTagName body.dstTag) ⟨400, "invalid dst tag name"⟩
  require (byteLen body.note ≤ promoteMaxNote) ⟨400, "note exceeds 256 characters"⟩
  require (hasRepoRole svc ctx org repo "writer")
    ⟨403, "insufficient permissions on source repository"⟩
  require (hasRepoRole svc ctx body.dstOrg body.dstRepo "writer")
    ⟨403, "insufficient permissions on destination repository"⟩
  require (!body.reSignOnPromote || svc.signerWired)
    ⟨400, "re_sign_on_promote requested but this deployment has no signer configured"⟩
  return .promoteTag ctx.tenantID org repo tag body.dstOrg body.dstRepo body.dstTag ctx.userID
    body.note body.createIfMissing

def renamingRepository {β : Type} (org repo : String) (newName : Option String)
    (rename : String → String → Except Response β) : Except Response β := do
  require (validateOrgName org) ⟨400, "invalid org name"⟩
  require (validateRepoName repo) ⟨400, "invalid repository name"⟩
  require (hasRepoRole svc ctx org repo "admin") ⟨403, "insufficient permissions"⟩
  let newName ← found newName ⟨400, "invalid request body"⟩
  require (validateRepoName newName) ⟨400, "invalid new repository name"⟩
  require (newName ≠ repo) ⟨400, "new_name must differ from the current name"⟩
  let repoID ← findRepo svc ctx org repo
  rename repoID newName

def handleRenameRepository (org repo : String) (newName : Option String) :
    Except Response MetaCall :=
  renamingRepository svc ctx org repo newName fun repoID newName =>
    return .renameRepository ctx.tenantID repoID newName

def serve : Request → Except Response MetaCall
  | .deleteTag org repo tag => handleDeleteTag svc ctx org repo tag
  | .deleteRepository org repo => handleDeleteRepository svc ctx org repo
  | .promoteTag org repo tag body => handlePromoteTag svc ctx org repo tag body
  | .renameRepository org repo newName => handleRenameRepository svc ctx org repo newName

def handle (authorization : String) (req : Request) : Except Response MetaCall :=
  match requireAuth svc.auth authorization with
  | .error r => .error r
  | .ok ctx => serve svc ctx req

def Performs (authorization : String) (req : Request) (call : MetaCall) : Prop :=
  handle svc authorization req = .ok call ∧ svc.succeeds call = true

def Holds (org repo minimum : String) : Prop :=
  ∃ g ∈ getUserAssignments svc.auth ctx, roleIndex minimum ≤ roleIndex g.roleName ∧
    (g.scope = repoScope org repo ∨ g.scope = ⟨.org, org⟩)

def Named (org repo : String) : Prop := validateOrgName org = true ∧ validateRepoName repo = true

inductive Permitted : MetaCall → Prop
  | deleteTag {org repo tag repoID : String} (named : Named org repo)
      (tagged : validateTagName tag = true) (role : Holds svc ctx org repo "writer")
      (exists_ : svc.repoByName ctx.tenantID (org ++ "/" ++ repo) = some repoID) :
      Permitted (.deleteTag repoID ctx.tenantID tag)
  | deleteRepository {org repo repoID : String} (named : Named org repo)
      (role : Holds svc ctx org repo "admin")
      (exists_ : svc.repoByName ctx.tenantID (org ++ "/" ++ repo) = some repoID) :
      Permitted (.deleteRepository repoID ctx.tenantID)
  | promoteTag {org repo tag dstOrg dstRepo dstTag note : String} {createIfMissing : Bool}
      (named : Named org repo) (tagged : validateTagName tag = true)
      (dstNamed : Named dstOrg dstRepo) (dstTagged : validateTagName dstTag = true)
      (noted : byteLen note ≤ promoteMaxNote) (role : Holds svc ctx org repo "writer")
      (dstRole : Holds svc ctx dstOrg dstRepo "writer") :
      Permitted (.promoteTag ctx.tenantID org repo tag dstOrg dstRepo dstTag ctx.userID note
        createIfMissing)
  | renameRepository {org repo newName repoID : String} (named : Named org repo)
      (role : Holds svc ctx org repo "admin") (newNamed : validateRepoName newName = true)
      (differs : newName ≠ repo)
      (exists_ : svc.repoByName ctx.tenantID (org ++ "/" ++ repo) = some repoID) :
      Permitted (.renameRepository ctx.tenantID repoID newName)

end Handlers

variable {svc : Service} {ctx : Context}

theorem hasRepoRole_iff {org repo minimum : String} (h : Named org repo)
    (hmin : 0 ≤ roleIndex minimum) :
    hasRepoRole svc ctx org repo minimum = true ↔ Holds svc ctx org repo minimum := by
  simp only [hasRepoRole, hasScopedRole, Bool.and_eq_true, decide_eq_true_eq, hmin, true_and,
    List.any_eq_true, covers_repo_iff h.1 h.2, Holds]

theorem writer_known : 0 ≤ roleIndex "writer" := by decide

theorem admin_known : 0 ≤ roleIndex "admin" := by decide

theorem permitted_of_serve {req : Request} {call : MetaCall} (h : serve svc ctx req = .ok call) :
    Permitted svc ctx call := by
  cases req with
  | deleteTag org repo tag =>
    simp only [serve, handleDeleteTag, findRepo, require_bind_eq_ok_iff, found_bind_eq_ok_iff,
      pure_eq_ok_iff] at h
    obtain ⟨horg, hrepo, htag, hrole, repoID, hid, rfl⟩ := h
    exact .deleteTag ⟨horg, hrepo⟩ htag ((hasRepoRole_iff ⟨horg, hrepo⟩ writer_known).mp hrole) hid
  | deleteRepository org repo =>
    simp only [serve, handleDeleteRepository, deletingRepository, findRepo,
      require_bind_eq_ok_iff, found_bind_eq_ok_iff, pure_eq_ok_iff] at h
    obtain ⟨horg, hrepo, hrole, repoID, hid, rfl⟩ := h
    exact .deleteRepository ⟨horg, hrepo⟩ ((hasRepoRole_iff ⟨horg, hrepo⟩ admin_known).mp hrole) hid
  | promoteTag org repo tag body =>
    simp only [serve, handlePromoteTag, require_bind_eq_ok_iff, found_bind_eq_ok_iff,
      pure_eq_ok_iff, decide_eq_true_eq] at h
    obtain ⟨horg, hrepo, htag, body, _, hdorg, hdrepo, hdtag, hnote, hrole, hdrole, _, rfl⟩ := h
    exact .promoteTag ⟨horg, hrepo⟩ htag ⟨hdorg, hdrepo⟩ hdtag hnote
      ((hasRepoRole_iff ⟨horg, hrepo⟩ writer_known).mp hrole)
      ((hasRepoRole_iff ⟨hdorg, hdrepo⟩ writer_known).mp hdrole)
  | renameRepository org repo newName =>
    simp only [serve, handleRenameRepository, renamingRepository, findRepo,
      require_bind_eq_ok_iff, found_bind_eq_ok_iff, pure_eq_ok_iff, decide_eq_true_eq] at h
    obtain ⟨horg, hrepo, hrole, newName, _, hnew, hdiffers, repoID, hid, rfl⟩ := h
    exact .renameRepository ⟨horg, hrepo⟩
      ((hasRepoRole_iff ⟨horg, hrepo⟩ admin_known).mp hrole) hnew hdiffers hid

theorem serve_of_permitted {call : MetaCall} (h : Permitted svc ctx call) :
    ∃ req, serve svc ctx req = .ok call := by
  cases h with
  | @deleteTag org repo tag repoID named tagged role exists_ =>
    refine ⟨.deleteTag org repo tag, ?_⟩
    simp only [serve, handleDeleteTag, findRepo, require_bind_eq_ok_iff, found_bind_eq_ok_iff,
      pure_eq_ok_iff]
    exact ⟨named.1, named.2, tagged, (hasRepoRole_iff named writer_known).mpr role, repoID,
      exists_, rfl⟩
  | @deleteRepository org repo repoID named role exists_ =>
    refine ⟨.deleteRepository org repo, ?_⟩
    simp only [serve, handleDeleteRepository, deletingRepository, findRepo,
      require_bind_eq_ok_iff, found_bind_eq_ok_iff, pure_eq_ok_iff]
    exact ⟨named.1, named.2, (hasRepoRole_iff named admin_known).mpr role, repoID, exists_, rfl⟩
  | @promoteTag org repo tag dstOrg dstRepo dstTag note createIfMissing named tagged dstNamed
      dstTagged noted role dstRole =>
      refine ⟨.promoteTag org repo tag
        (some ⟨dstOrg, dstRepo, dstTag, note, createIfMissing, false⟩), ?_⟩
      simp only [serve, handlePromoteTag, require_bind_eq_ok_iff, found_bind_eq_ok_iff,
        pure_eq_ok_iff, decide_eq_true_eq]
      exact ⟨named.1, named.2, tagged, _, rfl, dstNamed.1, dstNamed.2, dstTagged, noted,
        (hasRepoRole_iff named writer_known).mpr role,
        (hasRepoRole_iff dstNamed writer_known).mpr dstRole, rfl, rfl⟩
  | @renameRepository org repo newName repoID named role newNamed differs exists_ =>
    refine ⟨.renameRepository org repo (some newName), ?_⟩
    simp only [serve, handleRenameRepository, renamingRepository, findRepo,
      require_bind_eq_ok_iff, found_bind_eq_ok_iff, pure_eq_ok_iff, decide_eq_true_eq]
    exact ⟨named.1, named.2, (hasRepoRole_iff named admin_known).mpr role, newName, rfl, newNamed,
      differs, repoID, exists_, rfl⟩

theorem handle_key (svc : Service) {authorization : String} {key : ValidatedKey}
    (hkey : KeyAuth svc.auth authorization key) (req : Request) :
    handle svc authorization req = serve svc (keyContext key) req := by
  rw [handle, requireAuth_key hkey]

theorem performs_iff {authorization : String} {key : ValidatedKey}
    (hkey : KeyAuth svc.auth authorization key) (call : MetaCall) :
    (∃ req, Performs svc authorization req call) ↔
      Permitted svc (keyContext key) call ∧ svc.succeeds call = true := by
  unfold Performs
  simp only [handle_key svc hkey]
  constructor
  · rintro ⟨req, hserve, hsucceeds⟩
    exact ⟨permitted_of_serve hserve, hsucceeds⟩
  · rintro ⟨hpermitted, hsucceeds⟩
    obtain ⟨req, hserve⟩ := serve_of_permitted hpermitted
    exact ⟨req, hserve, hsucceeds⟩

/-- **When the scopes of a key bind.** -/
theorem scopes_bind_iff (svc : Service) (authorization : String) (key : ValidatedKey)
    (hkey : KeyAuth svc.auth authorization key) :
    (∀ req call, Performs svc authorization req call → call.scope ∈ key.effectiveScopes) ↔
      ∀ call, Permitted svc (keyContext key) call → svc.succeeds call = true →
        call.scope ∈ key.effectiveScopes := by
  constructor
  · intro hbind call hpermitted hsucceeds
    obtain ⟨req, hperforms⟩ := (performs_iff hkey call).mpr ⟨hpermitted, hsucceeds⟩
    exact hbind req call hperforms
  · intro hall req call hperforms
    obtain ⟨hpermitted, hsucceeds⟩ := (performs_iff hkey call).mp ⟨req, hperforms⟩
    exact hall call hpermitted hsucceeds

def sampleService (role : String) : Service where
  auth := sampleAuth role (repoScope "acme" "app")
  repoByName tenantID name := if tenantID = sampleTenant ∧ name = "acme/app" then some "r" else none
  succeeds _ := true
  signerWired := false

theorem pull_key_deletes_tag :
    KeyAuth (sampleService "writer").auth sampleHeader pullKey ∧
      Performs (sampleService "writer") sampleHeader (.deleteTag "acme" "app" "v1")
        (.deleteTag "r" sampleTenant "v1") ∧
      (MetaCall.deleteTag "r" sampleTenant "v1").scope ∉ pullKey.effectiveScopes := by
  refine ⟨sample_keyAuth "writer" _, ⟨?_, rfl⟩, by decide⟩
  apply (handle_key (sampleService "writer") (sample_keyAuth "writer" _) _).trans
  decide +kernel

theorem pull_key_of_reader_bound :
    KeyAuth (sampleService "reader").auth sampleHeader pullKey ∧
      ∀ req call, Performs (sampleService "reader") sampleHeader req call →
        call.scope ∈ pullKey.effectiveScopes := by
  have hkey := sample_keyAuth "reader" (repoScope "acme" "app")
  refine ⟨hkey, ?_⟩
  have hnone : ∀ org repo minimum, 1 ≤ roleIndex minimum →
      ¬ Holds (sampleService "reader") (keyContext pullKey) org repo minimum := by
    rintro org repo minimum hmin ⟨g, hg, hrank, _⟩
    have hreader : ∀ g ∈ getUserAssignments (sampleService "reader").auth (keyContext pullKey),
        roleIndex g.roleName = 0 := by decide +kernel
    have hzero := hreader g hg
    omega
  apply (scopes_bind_iff (sampleService "reader") sampleHeader pullKey hkey).mpr
  intro call hpermitted _
  cases hpermitted with
  | deleteTag _ _ role _ => exact absurd role (hnone _ _ _ (by decide))
  | deleteRepository _ role _ => exact absurd role (hnone _ _ _ (by decide))
  | promoteTag _ _ _ _ _ role _ => exact absurd role (hnone _ _ _ (by decide))
  | renameRepository _ role _ _ _ => exact absurd role (hnone _ _ _ (by decide))

end OciJanus.Management.ApiKeyScopes
