import OciJanus.Management.ApiKeyScopes
import OciJanus.Verified.KeyedTable

/-!
# Role assignments of repositories that come and go

Deleting a repository leaves its grants, and nothing looks at them when a repository comes to the
name. The tenant and the user are UUIDs in their usual form.
-/

namespace OciJanus.Management.RepoGrants

open Auth.Delegation (Code GrantRoleRequest grantRole revokeRole uuidNil)
open Verified Checks GoStrings KeyedTable Run Auth.Roles Management.ApiKeyScopes List

structure Repository where
  (id tenantID org name : String)
  deriving DecidableEq

/-- `grantedFor` remembers the repositories that a grant was made for. -/
structure State where
  organizations : List (String × String)
  repositories : Table Repository String (·.id)
  repoIDs : List String
  auth : AuthService
  grantedFor : String → List String

def State.assignments (s : State) : List RoleAssignment := s.auth.state.assignments

def State.setAuth (s : State) (st : OciJanus.Auth.Delegation.State) : State :=
  { s with auth := { s.auth with state := st } }

section Metadata

variable (s : State)

def getRepositoryByFullName (tenantID fullName : String) : Option Repository :=
  s.repositories.rows.find? fun r => r.tenantID = tenantID ∧ r.org ++ "/" ++ r.name = fullName

def getOrCreateOrganization (tenantID org : String) : State :=
  if (tenantID, org) ∈ s.organizations then s
  else { s with organizations := s.organizations ++ [(tenantID, org)] }

def createRepository (tenantID name id : String) : Except Code State :=
  match cut '/' name with
  | none => .error .invalidArgument
  | some (org, leaf) =>
    let s := getOrCreateOrganization s tenantID org
    if s.repositories.rows.any fun r => r.tenantID = tenantID ∧ r.org = org ∧ r.name = leaf then
      .ok s
    else if id ∈ s.repoIDs then .error .internal
    else
      .ok { s with
        repositories := s.repositories.insertNew ⟨id, tenantID, org, leaf⟩
        repoIDs := id :: s.repoIDs }

def deletes (tenantID repoID : String) (r : Repository) : Bool :=
  r.id = repoID ∧ r.tenantID = tenantID

def deleteRepository (tenantID repoID : String) : Except Code State :=
  if s.repositories.rows.any (deletes tenantID repoID) then
    .ok { s with repositories := s.repositories.remove (deletes tenantID repoID) }
  else .error .notFound

def Repository.placed (place : Repository → String × String) (r : Repository) : Repository :=
  { r with org := (place r).1, name := (place r).2 }

theorem Repository.placed_id (place : Repository → String × String) (r : Repository) :
    (r.placed place).id = r.id := rfl

def updateRepository (tenantID repoID : String) (place : Repository → String × String) :
    Except Code State :=
  match s.repositories.get repoID with
  | none => .error .notFound
  | some r =>
    if r.tenantID ≠ tenantID then .error .notFound
    else if s.repositories.rows.any fun q =>
        q.id ≠ repoID ∧ q.tenantID = tenantID ∧ q.org = (place r).1 ∧ q.name = (place r).2
    then .error .alreadyExists
    else
      .ok { s with
        repositories :=
          s.repositories.modify repoID (Repository.placed place) (Repository.placed_id place) }

def renameRepository (tenantID repoID newName : String) : Except Code State :=
  if newName = "" then .error .invalidArgument
  else updateRepository s tenantID repoID fun r => (r.org, newName)

def transferRepository (tenantID repoID destOrg : String) : Except Code State :=
  if destOrg = "" then .error .invalidArgument
  else if (tenantID, destOrg) ∉ s.organizations then .error .notFound
  else updateRepository s tenantID repoID fun r => (destOrg, r.name)

end Metadata

structure RpcError where
  (code desc : String)

def RpcError.text (e : RpcError) : String := "rpc error: code = " ++ e.code ++ " desc = " ++ e.desc

def rewrites (tenantID oldScope : String) (g : RoleAssignment) : Bool :=
  g.tenantID = tenantID ∧ g.scope = ⟨.repo, oldScope⟩

def rewritten (tenantID oldScope newScope : String) (g : RoleAssignment) : RoleAssignment :=
  if rewrites tenantID oldScope g then { g with scope := ⟨.repo, newScope⟩ } else g

def collides (assignments : List RoleAssignment) (newScope : String) (g : RoleAssignment) : Bool :=
  assignments.any fun h =>
    h.userID = g.userID ∧ h.roleName = g.roleName ∧ h.scope = ⟨.repo, newScope⟩

def rewriteRepoRoleScopes (assignments : List RoleAssignment)
    (tenantID oldScope newScope : String) : Except RpcError (List RoleAssignment × Nat) :=
  if oldScope = "" ∨ newScope = "" then
    .error ⟨"InvalidArgument", "old_scope and new_scope must not be empty"⟩
  else if oldScope = newScope then
    .error ⟨"InvalidArgument", "old_scope and new_scope must differ"⟩
  else if assignments.any fun g =>
      rewrites tenantID oldScope g && collides assignments newScope g
  then
    .error ⟨"AlreadyExists", "unique constraint " ++
      "\"role_assignments_user_id_role_id_scope_type_scope_value_key\" violated"⟩
  else
    .ok (assignments.map (rewritten tenantID oldScope newScope),
      assignments.countP (rewrites tenantID oldScope))

structure Reply where
  rolesRewritten : Nat
  rbacWarning : String

def Reply.silent : Reply := ⟨0, ""⟩

structure CreateRepositoryBody where
  (org name : String)

structure GrantMemberBody where
  (userID role : String)

section Handlers

variable (s : State) (ctx : Context)

def service : Service where
  auth := s.auth
  repoByName tenantID name := (getRepositoryByFullName s tenantID name).map (·.id)
  succeeds _ := true
  signerWired := true

def hasOrgRole (org minimum : String) : Bool :=
  hasScopedRole (getUserAssignments s.auth ctx) ⟨.org, org⟩ minimum

def handleCreateRepository (body : Option CreateRepositoryBody) (id : String) :
    Except Response State := do
  let body ← found body ⟨400, "invalid request body"⟩
  require (validateOrgName body.org) ⟨400, "invalid org name"⟩
  require (validateRepoName body.name) ⟨400, "invalid repository name"⟩
  require (hasOrgRole s ctx body.org "admin") ⟨403, "insufficient permissions"⟩
  (createRepository s ctx.tenantID (body.org ++ "/" ++ body.name) id).mapError fun _ =>
    ⟨500, "failed to create repository"⟩

def handleDeleteRepository (org repo : String) : Except Response State :=
  deletingRepository (service s) ctx org repo fun repoID =>
    (deleteRepository s ctx.tenantID repoID).mapError fun _ => ⟨500, "failed to delete repository"⟩

def rewriteRepoScopes (done oldScope newScope : String) : State × Reply :=
  match rewriteRepoRoleScopes s.assignments ctx.tenantID oldScope newScope with
  | .ok (assignments, n) =>
    (s.setAuth { s.auth.state with assignments := assignments }, ⟨n, ""⟩)
  | .error e =>
    (s, ⟨0, "repository was " ++ done ++ ", but migrating its access grants failed — " ++
      "re-grant repo permissions manually: " ++ e.text⟩)

def rewriteRepoScopesOnRename (org oldName newName : String) : State × Reply :=
  rewriteRepoScopes s ctx "renamed" (org ++ "/" ++ oldName) (org ++ "/" ++ newName)

def rewriteRepoScopesOnTransfer (oldOrg newOrg name : String) : State × Reply :=
  rewriteRepoScopes s ctx "transferred" (oldOrg ++ "/" ++ name) (newOrg ++ "/" ++ name)

def renameError : Code → Response
  | .alreadyExists => ⟨409, "a repository with that name already exists in this organization"⟩
  | _ => ⟨500, "failed to rename repository"⟩

def transferError : Code → Response
  | .notFound => ⟨404, "destination organization not found"⟩
  | .alreadyExists =>
    ⟨409, "a repository with that name already exists in the destination organization"⟩
  | _ => ⟨500, "failed to transfer repository"⟩

def handleRenameRepository (org repo : String) (newName : Option String) :
    Except Response (State × Reply) :=
  renamingRepository (service s) ctx org repo newName fun repoID newName => do
    let s' ← (renameRepository s ctx.tenantID repoID newName).mapError renameError
    return rewriteRepoScopesOnRename s' ctx org repo newName

def handleTransferRepository (org repo : String) (destOrg : Option String) :
    Except Response (State × Reply) := do
  require (validateOrgName org) ⟨400, "invalid org name"⟩
  require (validateRepoName repo) ⟨400, "invalid repository name"⟩
  let destOrg ← found destOrg ⟨400, "invalid request body"⟩
  require (validateOrgName destOrg) ⟨400, "invalid destination org name"⟩
  require (destOrg ≠ org) ⟨400, "dest_org must differ from the current org"⟩
  require (hasRepoRole (service s) ctx org repo "admin")
    ⟨403, "insufficient permissions on the source repository"⟩
  require (hasOrgRole s ctx destOrg "admin")
    ⟨403, "insufficient permissions on the destination organization"⟩
  let repoID ← findRepo (service s) ctx org repo
  let s' ← (transferRepository s ctx.tenantID repoID destOrg).mapError transferError
  return rewriteRepoScopesOnTransfer s' ctx org destOrg repo

def noteGrant (req : GrantRoleRequest) (after : List RoleAssignment) (i : String) : List String :=
  let asked := after.any fun g =>
    g.id = i ∧ g.tenantID = req.tenantID ∧ g.userID = req.userID ∧ g.roleName = req.role ∧
      g.scope = ⟨.repo, req.scopeValue⟩
  let repo := getRepositoryByFullName s req.tenantID req.scopeValue
  (if asked then (repo.map (·.id)).toList else []) ++
    (if s.assignments.any (·.id = i) then s.grantedFor i else [])

def handleGrantRepoMember (org repo : String) (body : Option GrantMemberBody) (id : String) :
    Except Response State := do
  require (validateOrgName org) ⟨400, "invalid org name"⟩
  require (validateRepoName repo) ⟨400, "invalid repository name"⟩
  require (hasRepoRole (service s) ctx org repo "admin") ⟨403, "insufficient permissions"⟩
  let body ← found body ⟨400, "invalid request body"⟩
  require (body.userID ≠ "" && body.role ≠ "") ⟨400, "user_id and role are required"⟩
  let userID ← found (s.auth.parseUUID body.userID) ⟨500, "failed to grant role"⟩
  let req : GrantRoleRequest :=
    ⟨ctx.tenantID, userID, body.role, "repo", org ++ "/" ++ repo,
      if ctx.userID = "" then uuidNil else ctx.userID⟩
  let st ← (grantRole s.auth.state req id).mapError fun _ => ⟨500, "failed to grant role"⟩
  return { s.setAuth st with grantedFor := noteGrant s req st.assignments }

def handleRevokeRepoMember (org repo assignmentID : String) : Except Response State := do
  require (validateOrgName org) ⟨400, "invalid org name"⟩
  require (validateRepoName repo) ⟨400, "invalid repository name"⟩
  require (hasRepoRole (service s) ctx org repo "admin") ⟨403, "insufficient permissions"⟩
  let id ← found (s.auth.parseUUID assignmentID) ⟨500, "failed to revoke role"⟩
  let st ← (revokeRole s.auth.state id ctx.tenantID "repo" (org ++ "/" ++ repo)).mapError fun _ =>
    ⟨500, "failed to revoke role"⟩
  return s.setAuth st

end Handlers

/-- A request to the management API, or the push that creates a repository. -/
inductive Action where
  | create (ctx : Context) (body : Option CreateRepositoryBody) (id : String)
  | push (tenantID name id : String)
  | delete (ctx : Context) (org repo : String)
  | rename (ctx : Context) (org repo : String) (newName : Option String)
  | transfer (ctx : Context) (org repo : String) (destOrg : Option String)
  | grant (ctx : Context) (org repo : String) (body : Option GrantMemberBody) (id : String)
  | revoke (ctx : Context) (org repo assignmentID : String)

def silently (x : Except Response State) : Except Response (State × Reply) :=
  x.map fun s => (s, Reply.silent)

def outcome (s : State) : Action → Except Response (State × Reply)
  | .create ctx body id => silently (handleCreateRepository s ctx body id)
  | .push tenantID name id =>
    silently ((createRepository s tenantID name id).mapError fun _ => ⟨500, "internal error"⟩)
  | .delete ctx org repo => silently (handleDeleteRepository s ctx org repo)
  | .rename ctx org repo newName => handleRenameRepository s ctx org repo newName
  | .transfer ctx org repo destOrg => handleTransferRepository s ctx org repo destOrg
  | .grant ctx org repo body id => silently (handleGrantRepoMember s ctx org repo body id)
  | .revoke ctx org repo assignmentID =>
    silently (handleRevokeRepoMember s ctx org repo assignmentID)

def step (s : State) (a : Action) : State :=
  match outcome s a with
  | .ok (s', _) => s'
  | .error _ => s

def warning (s : State) (a : Action) : String :=
  match outcome s a with
  | .ok (_, reply) => reply.rbacWarning
  | .error _ => ""

def fresh (auth : AuthService) (organizations : List (String × String)) : State where
  organizations := organizations
  repositories := Table.empty
  repoIDs := []
  auth := auth
  grantedFor _ := []

def Matches (g : RoleAssignment) (r : Repository) : Prop :=
  g.tenantID = r.tenantID ∧ g.scope = repoScope r.org r.name
  deriving Decidable

def Own (s : State) : Prop :=
  ∀ r ∈ s.repositories.rows, ∀ g ∈ s.assignments, Matches g r → r.id ∈ s.grantedFor g.id

def FollowsTo (s s' : State) : Prop :=
  ∀ r ∈ s.repositories.rows, ∀ r' ∈ s'.repositories.rows, r'.id = r.id → r' ≠ r →
    ∀ g', (g' ∈ s'.assignments ∧ Matches g' r') ↔
      ∃ g ∈ s.assignments, Matches g r ∧ g' = { g with scope := repoScope r'.org r'.name }

deriving instance Decidable for Own

def Follows (s : State) (a : Action) : Prop := FollowsTo s (step s a)

/-- The rows that only the result has are at names without grants: whether a request places one
depends on all its checks. -/
def CleanTo (s s' : State) : Prop :=
  ∀ r ∈ s'.repositories.rows, r ∉ s.repositories.rows → ∀ g ∈ s.assignments, ¬ Matches g r

def Clean (s : State) (a : Action) : Prop := CleanTo s (step s a) ∧ warning s a = ""

instance (s : State) (a : Action) : Decidable (Clean s a) := by
  unfold Clean CleanTo
  infer_instance

theorem fullName_ne_empty (org name : String) : org ++ "/" ++ name ≠ "" := by
  rw [fullName_eq]
  intro h
  have hlist := congrArg String.toList h
  simp at hlist

def follow (r r' : Repository) : RoleAssignment → RoleAssignment :=
  rewritten r.tenantID (r.org ++ "/" ++ r.name) (r'.org ++ "/" ++ r'.name)

def State.move (s : State) (r : Repository) (place : Repository → String × String) : State :=
  { s with
    repositories :=
      s.repositories.modify r.id (Repository.placed place) (Repository.placed_id place) }

structure Movable (s : State) (r : Repository) (place : Repository → String × String) : Prop where
  mem : r ∈ s.repositories.rows
  slash : '/' ∉ (place r).1.toList
  moves : r.placed place ≠ r
  free : ∀ q ∈ s.repositories.rows, q.id ≠ r.id → q.tenantID = r.tenantID →
    q.org = (place r).1 → q.name ≠ (place r).2

inductive Effect (s : State) : State → String → Prop
  | none (organizations : List (String × String)) :
      Effect s { s with organizations := organizations } ""
  | created (organizations : List (String × String)) (r : Repository) (unused : r.id ∉ s.repoIDs)
      (slash : '/' ∉ r.org.toList)
      (free : ∀ q ∈ s.repositories.rows, q.tenantID = r.tenantID → q.org = r.org →
        q.name ≠ r.name) :
      Effect s
        { s with
          organizations := organizations
          repositories := s.repositories.insertNew r
          repoIDs := r.id :: s.repoIDs } ""
  | deleted (p : Repository → Bool) : Effect s { s with repositories := s.repositories.remove p } ""
  | moved (r : Repository) (place : Repository → String × String) (movable : Movable s r place) :
      Effect s ((s.move r place).setAuth
          { s.auth.state with assignments := s.assignments.map (follow r (r.placed place)) }) ""
  | stuck (r : Repository) (place : Repository → String × String) (movable : Movable s r place)
      (g : RoleAssignment) (hg : g ∈ s.assignments) (held : Matches g r) (text : String)
      (warned : text ≠ "") :
      Effect s (s.move r place) text
  | granted (req : GrantRoleRequest) (id : String) (st : OciJanus.Auth.Delegation.State)
      (repo : req.scopeType = "repo") (done : grantRole s.auth.state req id = .ok st) :
      Effect s { s.setAuth st with grantedFor := noteGrant s req st.assignments } ""
  | revoked (p : RoleAssignment → Bool) :
      Effect s (s.setAuth { s.auth.state with assignments := s.assignments.filter p }) ""

variable {s : State} {ctx : Context}

theorem getOrCreateOrganization_eq (s : State) (tenantID org : String) :
    ∃ organizations,
      getOrCreateOrganization s tenantID org = { s with organizations := organizations } := by
  unfold getOrCreateOrganization
  split
  · exact ⟨s.organizations, rfl⟩
  · exact ⟨_, rfl⟩

variable {s' : State} {tenantID id repoID org repo : String} {out : State × Reply}

theorem createRepository_effect {name : String}
    (h : createRepository s tenantID name id = .ok s') : Effect s s' "" := by
  unfold createRepository at h
  cases hcut : cut '/' name with
  | none =>
    rw [hcut] at h
    cases h
  | some parts =>
    obtain ⟨org, leaf⟩ := parts
    obtain ⟨organizations, horgs⟩ := getOrCreateOrganization_eq s tenantID org
    simp only [hcut, horgs] at h
    split_ifs at h with hthere hused
    · cases h
      exact .none organizations
    · cases h
      refine .created organizations ⟨id, tenantID, org, leaf⟩ hused (notMem_of_cut hcut) ?_
      intro q hq htenant horg hname
      exact hthere (any_eq_true.mpr ⟨q, hq, decide_eq_true ⟨htenant, horg, hname⟩⟩)

theorem deleteRepository_effect
    (h : deleteRepository s tenantID repoID = .ok s') : Effect s s' "" := by
  unfold deleteRepository at h
  split_ifs at h
  cases h
  exact .deleted _

theorem updateRepository_ok
    {place : Repository → String × String} (h : updateRepository s tenantID repoID place = .ok s') :
    ∃ r, s.repositories.get repoID = some r ∧ r.tenantID = tenantID ∧ s' = s.move r place ∧
      ∀ q ∈ s.repositories.rows, q.id ≠ r.id → q.tenantID = r.tenantID →
        q.org = (place r).1 → q.name ≠ (place r).2 := by
  unfold updateRepository at h
  cases hget : s.repositories.get repoID with
  | none =>
    rw [hget] at h
    cases h
  | some r =>
    have hid : r.id = repoID := Table.key_of_get hget
    simp only [hget, ne_eq, ite_not] at h
    split_ifs at h with htenant htaken
    cases h
    refine ⟨r, rfl, htenant, by rw [State.move, hid], ?_⟩
    intro q hq hne hq' horg hname
    refine htaken (any_eq_true.mpr ⟨q, hq, decide_eq_true ?_⟩)
    exact ⟨hid ▸ hne, hq'.trans htenant, horg, hname⟩

theorem rewriteRepoRoleScopes_cases {assignments : List RoleAssignment}
    {oldScope newScope : String} (hold : oldScope ≠ "") (hnew : newScope ≠ "")
    (hne : oldScope ≠ newScope) :
    (∃ n, rewriteRepoRoleScopes assignments tenantID oldScope newScope =
        .ok (assignments.map (rewritten tenantID oldScope newScope), n)) ∨
      ∃ e, rewriteRepoRoleScopes assignments tenantID oldScope newScope = .error e ∧
        ∃ g ∈ assignments, g.tenantID = tenantID ∧ g.scope = ⟨.repo, oldScope⟩ := by
  unfold rewriteRepoRoleScopes
  rw [if_neg (not_or.mpr ⟨hold, hnew⟩), if_neg hne]
  split_ifs with hcollides
  · right
    obtain ⟨g, hg, hboth⟩ := any_eq_true.mp hcollides
    rw [Bool.and_eq_true] at hboth
    exact ⟨_, rfl, g, hg, of_decide_eq_true hboth.1⟩
  · exact Or.inl ⟨_, rfl⟩

theorem rewriteRepoScopes_effect {r : Repository} {place : Repository → String × String}
    (hmovable : Movable s r place) (hslash : '/' ∉ r.org.toList)
    (htenant : r.tenantID = ctx.tenantID) (done : String)
    (h : rewriteRepoScopes (s.move r place) ctx done (r.org ++ "/" ++ r.name)
      ((place r).1 ++ "/" ++ (place r).2) = out) : Effect s out.1 out.2.rbacWarning := by
  have hne : r.org ++ "/" ++ r.name ≠ (place r).1 ++ "/" ++ (place r).2 := by
    intro hsame
    obtain ⟨horg, hname⟩ := fullName_inj hslash hmovable.slash hsame
    apply hmovable.moves
    rw [Repository.placed, ← horg, ← hname]
  have hassignments : (s.move r place).assignments = s.assignments := rfl
  rw [← h, rewriteRepoScopes, ← htenant, hassignments]
  rcases rewriteRepoRoleScopes_cases (fullName_ne_empty r.org r.name)
    (fullName_ne_empty (place r).1 (place r).2) hne with ⟨n, hok⟩ | ⟨e, herror, g, hg, hheld⟩
  · rw [hok]
    exact .moved r place hmovable
  · rw [herror]
    exact .stuck r place hmovable g hg hheld _ (by simp)

theorem getRepositoryByFullName_eq_some {fullName : String} {r : Repository}
    (h : getRepositoryByFullName s tenantID fullName = some r) :
    r ∈ s.repositories.rows ∧ r.tenantID = tenantID ∧ r.org ++ "/" ++ r.name = fullName := by
  unfold getRepositoryByFullName at h
  have hfound := List.find?_some h
  rw [decide_eq_true_eq] at hfound
  exact ⟨mem_of_find?_eq_some h, hfound⟩

theorem repoByName_eq_some (horg : '/' ∉ org.toList)
    (hslash : ∀ r ∈ s.repositories.rows, '/' ∉ r.org.toList)
    (h : (service s).repoByName tenantID (org ++ "/" ++ repo) = some repoID) :
    ∃ r ∈ s.repositories.rows, s.repositories.get repoID = some r ∧ r.tenantID = tenantID ∧
      r.org = org ∧ r.name = repo := by
  obtain ⟨r, hfind, hid⟩ := Option.map_eq_some_iff.mp h
  obtain ⟨hmem, htenant, hname⟩ := getRepositoryByFullName_eq_some hfind
  obtain ⟨horg', hname'⟩ := fullName_inj (hslash r hmem) horg hname
  refine ⟨r, hmem, ?_, htenant, horg', hname'⟩
  rw [← hid]
  exact s.repositories.get_key hmem

theorem handleRenameRepository_effect (hslash : ∀ r ∈ s.repositories.rows, '/' ∉ r.org.toList)
    {newName : Option String} (h : handleRenameRepository s ctx org repo newName = .ok out) :
    Effect s out.1 out.2.rbacWarning := by
  simp only [handleRenameRepository, renamingRepository, findRepo, require_bind_eq_ok_iff,
    found_bind_eq_ok_iff, mapError_bind_eq_ok_iff, pure_eq_ok_iff, decide_eq_true_eq,
    renameRepository] at h
  obtain ⟨horg, _, _, name, _, _, hdiffers, repoID, hid, s', hupdate, hout⟩ := h
  split_ifs at hupdate
  have horg' := validateOrgName_slash horg
  obtain ⟨r, hmem, hget, htenant, rfl, rfl⟩ := repoByName_eq_some horg' hslash hid
  obtain ⟨r', hget', _, rfl, hfree⟩ := updateRepository_ok hupdate
  obtain rfl : r = r' := Option.some.inj (hget.symm.trans hget')
  refine rewriteRepoScopes_effect ⟨hmem, horg', ?_, hfree⟩ horg' htenant "renamed" hout
  intro hsame
  exact hdiffers (congrArg Repository.name hsame)

theorem handleTransferRepository_effect (hslash : ∀ r ∈ s.repositories.rows, '/' ∉ r.org.toList)
    {destOrg : Option String} (h : handleTransferRepository s ctx org repo destOrg = .ok out) :
    Effect s out.1 out.2.rbacWarning := by
  simp only [handleTransferRepository, findRepo, require_bind_eq_ok_iff, found_bind_eq_ok_iff,
    mapError_bind_eq_ok_iff, pure_eq_ok_iff, decide_eq_true_eq, transferRepository] at h
  obtain ⟨horg, _, dest, _, hdest, hdiffers, _, _, repoID, hid, s', hupdate, hout⟩ := h
  split_ifs at hupdate
  have horg' := validateOrgName_slash horg
  have hdest' := validateOrgName_slash hdest
  obtain ⟨r, hmem, hget, htenant, rfl, rfl⟩ := repoByName_eq_some horg' hslash hid
  obtain ⟨r', hget', _, rfl, hfree⟩ := updateRepository_ok hupdate
  obtain rfl : r = r' := Option.some.inj (hget.symm.trans hget')
  refine rewriteRepoScopes_effect ⟨hmem, hdest', ?_, hfree⟩ horg' htenant "transferred" hout
  intro hsame
  exact hdiffers (congrArg Repository.org hsame)

theorem handleGrantRepoMember_effect {body : Option GrantMemberBody}
    (h : handleGrantRepoMember s ctx org repo body id = .ok s') : Effect s s' "" := by
  simp only [handleGrantRepoMember, require_bind_eq_ok_iff, found_bind_eq_ok_iff,
    mapError_bind_eq_ok_iff, pure_eq_ok_iff] at h
  obtain ⟨_, _, _, body, _, _, userID, _, st, hgrant, rfl⟩ := h
  exact .granted _ id st rfl hgrant

theorem handleRevokeRepoMember_effect {assignmentID : String}
    (h : handleRevokeRepoMember s ctx org repo assignmentID = .ok s') : Effect s s' "" := by
  simp only [handleRevokeRepoMember, require_bind_eq_ok_iff, found_bind_eq_ok_iff,
    mapError_bind_eq_ok_iff, pure_eq_ok_iff, revokeRole] at h
  obtain ⟨_, _, _, id, _, st, hrevoke, rfl⟩ := h
  split_ifs at hrevoke
  cases hrevoke
  exact .revoked _

theorem silently_eq_ok {x : Except Response State}
    (h : silently x = .ok out) : x = .ok out.1 ∧ out.2.rbacWarning = "" := by
  cases x with
  | error e => cases h
  | ok s' =>
    cases h
    exact ⟨rfl, rfl⟩

theorem outcome_effect (hslash : ∀ r ∈ s.repositories.rows, '/' ∉ r.org.toList) {a : Action}
    (h : outcome s a = .ok out) : Effect s out.1 out.2.rbacWarning := by
  cases a with
  | create ctx body id =>
    obtain ⟨hcreate, hsilent⟩ := silently_eq_ok h
    simp only [handleCreateRepository, found_bind_eq_ok_iff, require_bind_eq_ok_iff,
      mapError_eq_ok_iff] at hcreate
    obtain ⟨body, _, _, _, _, hcreate⟩ := hcreate
    rw [hsilent]
    exact createRepository_effect hcreate
  | push tenantID name id =>
    obtain ⟨hcreate, hsilent⟩ := silently_eq_ok h
    rw [hsilent]
    exact createRepository_effect (mapError_eq_ok_iff.mp hcreate)
  | delete ctx org repo =>
    obtain ⟨hdelete, hsilent⟩ := silently_eq_ok h
    simp only [handleDeleteRepository, deletingRepository, findRepo, found_bind_eq_ok_iff,
      require_bind_eq_ok_iff, mapError_eq_ok_iff] at hdelete
    obtain ⟨_, _, _, repoID, _, hdelete⟩ := hdelete
    rw [hsilent]
    exact deleteRepository_effect hdelete
  | rename ctx org repo newName => exact handleRenameRepository_effect hslash h
  | transfer ctx org repo destOrg => exact handleTransferRepository_effect hslash h
  | grant ctx org repo body id =>
    obtain ⟨hgrant, hsilent⟩ := silently_eq_ok h
    rw [hsilent]
    exact handleGrantRepoMember_effect hgrant
  | revoke ctx org repo assignmentID =>
    obtain ⟨hrevoke, hsilent⟩ := silently_eq_ok h
    rw [hsilent]
    exact handleRevokeRepoMember_effect hrevoke

theorem step_effect (hslash : ∀ r ∈ s.repositories.rows, '/' ∉ r.org.toList) (a : Action) :
    Effect s (step s a) (warning s a) := by
  unfold step warning
  cases h : outcome s a with
  | ok out => exact outcome_effect hslash h
  | error e => exact .none s.organizations

structure WellFormed (s : State) : Prop where
  ids : (s.assignments.map (·.id)).Nodup
  slash : ∀ r ∈ s.repositories.rows, '/' ∉ r.org.toList
  names : ∀ r ∈ s.repositories.rows, ∀ q ∈ s.repositories.rows, r.tenantID = q.tenantID →
    r.org = q.org → r.name = q.name → r = q
  known : ∀ r ∈ s.repositories.rows, r.id ∈ s.repoIDs
  noted : ∀ i, ∀ x ∈ s.grantedFor i, x ∈ s.repoIDs
  rooted : ∀ g ∈ s.assignments, ∀ r ∈ s.repositories.rows, r.id ∈ s.grantedFor g.id → Matches g r

theorem fresh_wf {auth : AuthService} (hids : (auth.state.assignments.map (·.id)).Nodup)
    (organizations : List (String × String)) : WellFormed (fresh auth organizations) where
  ids := hids
  slash _ hr := by cases hr
  names _ hr := by cases hr
  known _ hr := by cases hr
  noted _ _ hx := by cases hx
  rooted _ _ _ hr := by cases hr

variable {g : RoleAssignment}

theorem place_of_matches {r q : Repository} (hr : '/' ∉ r.org.toList)
    (hq : '/' ∉ q.org.toList) (hgr : Matches g r) (hgq : Matches g q) :
    r.tenantID = q.tenantID ∧ r.org = q.org ∧ r.name = q.name := by
  have hscope : repoScope r.org r.name = repoScope q.org q.name := hgr.2.symm.trans hgq.2
  obtain ⟨horg, hname⟩ := fullName_inj hr hq (congrArg Scope.value hscope)
  exact ⟨hgr.1.symm.trans hgq.1, horg, hname⟩

namespace WellFormed

variable (hW : WellFormed s)
include hW

theorem repo_unique {g : RoleAssignment} {r q : Repository} (hr : r ∈ s.repositories.rows)
    (hq : q ∈ s.repositories.rows) (hgr : Matches g r) (hgq : Matches g q) : r = q := by
  obtain ⟨htenant, horg, hname⟩ := place_of_matches (hW.slash r hr) (hW.slash q hq) hgr hgq
  exact hW.names r hr q hq htenant horg hname

theorem assignment_unique {g h : RoleAssignment} (hg : g ∈ s.assignments) (hh : h ∈ s.assignments)
    (hid : g.id = h.id) : g = h :=
  inj_on_of_nodup_map hW.ids hg hh hid

theorem getRepositoryByFullName_of_mem {r : Repository} (hr : r ∈ s.repositories.rows) :
    getRepositoryByFullName s r.tenantID (r.org ++ "/" ++ r.name) = some r := by
  cases hfind : getRepositoryByFullName s r.tenantID (r.org ++ "/" ++ r.name) with
  | none =>
    unfold getRepositoryByFullName at hfind
    have hnot := List.find?_eq_none.mp hfind r hr
    simp at hnot
  | some q =>
    obtain ⟨hq, htenant, hname⟩ := getRepositoryByFullName_eq_some hfind
    obtain ⟨horg, hname⟩ := fullName_inj (hW.slash q hq) (hW.slash r hr) hname
    rw [hW.names q hq r hr htenant horg hname]

end WellFormed

def Keeps (s s' : State) (text : String) : Prop :=
  (Own s' ∧ FollowsTo s s' ↔ CleanTo s s' ∧ text = "") ∧ (CleanTo s s' ∧ text = "" → WellFormed s')

theorem keeps_of_subset (hsub : ∀ r ∈ s'.repositories.rows, r ∈ s.repositories.rows)
    (hW' : WellFormed s') (hown' : Own s') : Keeps s s' "" := by
  have hfollows : FollowsTo s s' := by
    intro r hr r' hr' hid hne
    exact absurd (s.repositories.eq_of_key_eq (hsub r' hr') hr hid) hne
  have hclean : CleanTo s s' := by
    intro r hr hnew
    exact absurd (hsub r hr) hnew
  exact ⟨⟨fun _ => ⟨hclean, rfl⟩, fun _ => ⟨hown', hfollows⟩⟩, fun _ => hW'⟩

theorem keeps_deleted (hW : WellFormed s) (hown : Own s) (p : Repository → Bool) :
    Keeps s { s with repositories := s.repositories.remove p } "" := by
  have hsub : ∀ r ∈ (s.repositories.remove p).rows, r ∈ s.repositories.rows :=
    fun r hr => (Table.mem_remove.mp hr).1
  refine keeps_of_subset hsub ?_ fun r hr => hown r (hsub r hr)
  exact {
    ids := hW.ids
    slash := fun r hr => hW.slash r (hsub r hr)
    names := fun r hr q hq => hW.names r (hsub r hr) q (hsub q hq)
    known := fun r hr => hW.known r (hsub r hr)
    noted := hW.noted
    rooted := fun g hg r hr => hW.rooted g hg r (hsub r hr) }

theorem keeps_revoked (hW : WellFormed s) (hown : Own s) (p : RoleAssignment → Bool) :
    Keeps s (s.setAuth { s.auth.state with assignments := s.assignments.filter p }) "" := by
  have hsub : ∀ g ∈ s.assignments.filter p, g ∈ s.assignments :=
    fun g hg => (mem_filter.mp hg).1
  refine keeps_of_subset (fun r hr => hr) ?_ fun r hr g hg => hown r hr g (hsub g hg)
  exact {
    ids := hW.ids.sublist (filter_sublist.map _)
    slash := hW.slash
    names := hW.names
    known := hW.known
    noted := hW.noted
    rooted := fun g hg => hW.rooted g (hsub g hg) }

theorem keeps_created (hW : WellFormed s) (hown : Own s) (organizations : List (String × String))
    {r : Repository} (hunused : r.id ∉ s.repoIDs) (hslash : '/' ∉ r.org.toList)
    (hfree : ∀ q ∈ s.repositories.rows, q.tenantID = r.tenantID → q.org = r.org → q.name ≠ r.name) :
    Keeps s
      { s with
        organizations := organizations
        repositories := s.repositories.insertNew r
        repoIDs := r.id :: s.repoIDs } "" := by
  have hid : ∀ q ∈ s.repositories.rows, q.id ≠ r.id := by
    intro q hq hsame
    exact hunused (hsame ▸ hW.known q hq)
  have hmem : ∀ q, q ∈ (s.repositories.insertNew r).rows ↔ q ∈ s.repositories.rows ∨ q = r := by
    intro q
    rw [Table.mem_insertNew, Table.get_eq_none_iff]
    exact or_congr_right (and_iff_left hid)
  -- nothing was ever granted for it
  have hnone : ∀ i, r.id ∉ s.grantedFor i := fun i hi => hunused (hW.noted i _ hi)
  constructor
  · constructor
    · rintro ⟨hown', _⟩
      refine ⟨?_, rfl⟩
      intro q hq hnew g hg hmatches
      rcases (hmem q).mp hq with hold | rfl
      · exact hnew hold
      · exact hnone g.id (hown' q hq g hg hmatches)
    · rintro ⟨hclean, _⟩
      constructor
      · intro q hq g hg hmatches
        by_cases hold : q ∈ s.repositories.rows
        · exact hown q hold g hg hmatches
        · exact absurd hmatches (hclean q hq hold g hg)
      · intro q hq q' hq' hsame hne
        rcases (hmem q').mp hq' with hold | rfl
        · exact absurd (s.repositories.eq_of_key_eq hold hq hsame) hne
        · exact absurd hsame.symm (hid q hq)
  · intro _
    exact {
      ids := hW.ids
      slash := by
        intro q hq
        rcases (hmem q).mp hq with hold | rfl
        · exact hW.slash q hold
        · exact hslash
      names := by
        intro q hq q' hq' htenant horg hname
        rcases (hmem q).mp hq with hold | rfl <;> rcases (hmem q').mp hq' with hold' | rfl
        · exact hW.names q hold q' hold' htenant horg hname
        · exact absurd hname (hfree q hold htenant horg)
        · exact absurd hname.symm (hfree q' hold' htenant.symm horg.symm)
        · rfl
      known := by
        intro q hq
        rcases (hmem q).mp hq with hold | rfl
        · exact mem_cons_of_mem _ (hW.known q hold)
        · exact mem_cons_self
      noted := fun i x hx => mem_cons_of_mem _ (hW.noted i x hx)
      rooted := by
        intro g hg q hq hfor
        rcases (hmem q).mp hq with hold | rfl
        · exact hW.rooted g hg q hold hfor
        · exact absurd hfor (hnone g.id) }

@[simp] theorem follow_id (r r' : Repository) (g : RoleAssignment) : (follow r r' g).id = g.id := by
  unfold follow rewritten
  split <;> rfl

theorem follow_of_matches {r : Repository} (h : Matches g r)
    (r' : Repository) : follow r r' g = { g with scope := repoScope r'.org r'.name } :=
  if_pos (decide_eq_true h)

theorem follow_matches {r : Repository} (h : Matches g r) (place : Repository → String × String) :
    Matches (follow r (r.placed place) g) (r.placed place) := by
  rw [follow_of_matches h]
  exact ⟨h.1, rfl⟩

theorem follow_of_not_matches {r : Repository} (h : ¬ Matches g r)
    (r' : Repository) : follow r r' g = g :=
  if_neg fun hrewrites => h (of_decide_eq_true hrewrites)

namespace Movable

variable {r : Repository} {place : Repository → String × String} (hmovable : Movable s r place)
include hmovable

theorem mem_move (q : Repository) :
    q ∈ (s.move r place).repositories.rows ↔
      (q ∈ s.repositories.rows ∧ q.id ≠ r.id) ∨ q = r.placed place := by
  show q ∈ (s.repositories.modify r.id (Repository.placed place)
    (Repository.placed_id place)).rows ↔ _
  rw [Table.mem_modify_iff]
  apply or_congr_right
  constructor
  · rintro ⟨q', hq', hid, rfl⟩
    rw [s.repositories.eq_of_key_eq hq' hmovable.mem hid]
  · intro hq
    exact ⟨r, hmovable.mem, rfl, hq⟩

theorem placed_mem : r.placed place ∈ (s.move r place).repositories.rows :=
  (hmovable.mem_move _).mpr (Or.inr rfl)

theorem placed_new : r.placed place ∉ s.repositories.rows := by
  intro hold
  exact hmovable.moves (s.repositories.eq_of_key_eq hold hmovable.mem rfl)

theorem not_matches_placed (hslash : '/' ∉ r.org.toList) {g : RoleAssignment}
    (hg : Matches g r) : ¬ Matches g (r.placed place) := by
  intro hplaced
  obtain ⟨_, horg, hname⟩ := place_of_matches hslash hmovable.slash hg hplaced
  exact hmovable.moves (by rw [Repository.placed, ← show r.org = (place r).1 from horg,
    ← show r.name = (place r).2 from hname])

theorem wellFormed (hW : WellFormed s) :
    WellFormed ((s.move r place).setAuth
      { s.auth.state with assignments := s.assignments.map (follow r (r.placed place)) }) where
  ids := by
    show ((s.assignments.map _).map _).Nodup
    rw [map_map, show RoleAssignment.id ∘ follow r (r.placed place) = RoleAssignment.id from
      funext (follow_id r (r.placed place))]
    exact hW.ids
  slash q hq := by
    rcases (hmovable.mem_move q).mp hq with ⟨hold, _⟩ | rfl
    · exact hW.slash q hold
    · exact hmovable.slash
  names q hq q' hq' htenant horg hname := by
    rcases (hmovable.mem_move q).mp hq with ⟨hold, hid⟩ | rfl <;>
      rcases (hmovable.mem_move q').mp hq' with ⟨hold', hid'⟩ | rfl
    · exact hW.names q hold q' hold' htenant horg hname
    · exact absurd hname (hmovable.free q hold hid htenant horg)
    · exact absurd hname.symm (hmovable.free q' hold' hid' htenant.symm horg.symm)
    · rfl
  known q hq := by
    rcases (hmovable.mem_move q).mp hq with ⟨hold, _⟩ | rfl
    · exact hW.known q hold
    · exact hW.known r hmovable.mem
  noted := hW.noted
  rooted g' hg' q hq hfor := by
    obtain ⟨g, hg, rfl⟩ := mem_map.mp hg'
    rw [follow_id] at hfor
    rcases (hmovable.mem_move q).mp hq with ⟨hold, hid⟩ | rfl
    · have hmatches := hW.rooted g hg q hold hfor
      have hnot : ¬ Matches g r := by
        intro hr
        exact hid (congrArg Repository.id (hW.repo_unique hold hmovable.mem hmatches hr))
      rw [follow_of_not_matches hnot]
      exact hmatches
    · exact follow_matches (hW.rooted g hg r hmovable.mem hfor) place

theorem keeps_moved (hW : WellFormed s) (hown : Own s) :
    Keeps s ((s.move r place).setAuth
      { s.auth.state with assignments := s.assignments.map (follow r (r.placed place)) }) "" := by
  have hslash := hW.slash r hmovable.mem
  have hW' := hmovable.wellFormed hW
  refine ⟨⟨?_, ?_⟩, fun _ => hW'⟩
  · rintro ⟨hown', _⟩
    refine ⟨?_, rfl⟩
    intro q hq hnew g hg hmatches
    rcases (hmovable.mem_move q).mp hq with ⟨hold, _⟩ | rfl
    · exact hnew hold
    -- an assignment left there stays as it is, and was not granted for `r`
    have hnot : ¬ Matches g r := fun hr => hmovable.not_matches_placed hslash hr hmatches
    have hg' : g ∈ s.assignments.map (follow r (r.placed place)) :=
      mem_map.mpr ⟨g, hg, follow_of_not_matches hnot _⟩
    exact hnot (hW.rooted g hg r hmovable.mem (hown' _ hq g hg' hmatches))
  · rintro ⟨hclean, _⟩
    have hleft : ∀ g ∈ s.assignments, ¬ Matches g (r.placed place) :=
      hclean _ hmovable.placed_mem hmovable.placed_new
    constructor
    · intro q hq g' hg' hmatches
      obtain ⟨g, hg, rfl⟩ := mem_map.mp hg'
      rw [follow_id]
      by_cases hr : Matches g r
      · rw [hW'.repo_unique hq hmovable.placed_mem hmatches (follow_matches hr place)]
        exact hown r hmovable.mem g hg hr
      · rw [follow_of_not_matches hr] at hmatches
        rcases (hmovable.mem_move q).mp hq with ⟨hold, _⟩ | rfl
        · exact hown q hold g hg hmatches
        · exact absurd hmatches (hleft g hg)
    · intro q hq q' hq' hid hne g'
      rcases (hmovable.mem_move q').mp hq' with ⟨hold, _⟩ | rfl
      · exact absurd (s.repositories.eq_of_key_eq hold hq hid) hne
      obtain rfl : r = q := s.repositories.eq_of_key_eq hmovable.mem hq hid
      constructor
      · rintro ⟨hg', hmatches⟩
        obtain ⟨g, hg, rfl⟩ := mem_map.mp hg'
        by_cases hr : Matches g r
        · exact ⟨g, hg, hr, follow_of_matches hr _⟩
        · rw [follow_of_not_matches hr] at hmatches
          exact absurd hmatches (hleft g hg)
      · rintro ⟨g, hg, hr, rfl⟩
        rw [← follow_of_matches hr]
        exact ⟨mem_map.mpr ⟨g, hg, rfl⟩, follow_matches hr place⟩

theorem keeps_stuck (hW : WellFormed s) {g : RoleAssignment} (hg : g ∈ s.assignments)
    (hheld : Matches g r) {text : String} (hwarned : text ≠ "") :
    Keeps s (s.move r place) text := by
  refine ⟨⟨?_, ?_⟩, fun h => absurd h.2 hwarned⟩
  · rintro ⟨_, hfollows⟩
    have hall := hfollows r hmovable.mem _ hmovable.placed_mem rfl hmovable.moves
    obtain ⟨hg', hmatches⟩ := (hall _).mpr ⟨g, hg, hheld, rfl⟩
    rw [hW.assignment_unique hg' hg rfl] at hmatches
    exact absurd hmatches (hmovable.not_matches_placed (hW.slash r hmovable.mem) hheld)
  · intro h
    exact absurd h.2 hwarned

end Movable

def Asked (req : GrantRoleRequest) (g : RoleAssignment) : Prop :=
  g.tenantID = req.tenantID ∧ g.userID = req.userID ∧ g.roleName = req.role ∧
    g.scope = ⟨.repo, req.scopeValue⟩

variable {req : GrantRoleRequest}

theorem grantRole_assignments {st st' : OciJanus.Auth.Delegation.State}
    (hrepo : req.scopeType = "repo") (h : grantRole st req id = .ok st') :
    st'.assignments = st.assignments ∨ ∃ g, Asked req g ∧ (∀ h ∈ st.assignments, h.id ≠ g.id) ∧
        st'.assignments = st.assignments ++ [g] := by
  unfold grantRole at h
  split_ifs at h
  split at h
  · cases h
  · unfold OciJanus.Auth.Delegation.insertAssignment at h
    simp only [hrepo, ScopeType.ofString] at h
    split_ifs at h with hrole huser hthere
    · cases h
      exact Or.inl rfl
    · cases h
      refine Or.inr ⟨_, ⟨rfl, rfl, rfl, rfl⟩, ?_, rfl⟩
      intro g hg hid
      exact huser (Or.inr (any_eq_true.mpr ⟨g, hg, decide_eq_true hid⟩))
    · cases h
      exact Or.inl rfl

theorem mem_noteGrant {after : List RoleAssignment} {i x : String} :
    x ∈ noteGrant s req after i ↔ ((∃ g ∈ after, g.id = i ∧ Asked req g) ∧
        ∃ r, getRepositoryByFullName s req.tenantID req.scopeValue = some r ∧ r.id = x) ∨
      ((∃ g ∈ s.assignments, g.id = i) ∧ x ∈ s.grantedFor i) := by
  unfold noteGrant Asked
  rw [mem_append]
  apply or_congr
  · split_ifs with hasked
    · simp only [any_eq_true, decide_eq_true_eq] at hasked
      simp [hasked]
    · simp only [any_eq_true, decide_eq_true_eq] at hasked
      simp [hasked]
  · split_ifs with hthere
    · simp only [any_eq_true, decide_eq_true_eq] at hthere
      simp [hthere]
    · simp only [any_eq_true, decide_eq_true_eq] at hthere
      simp [hthere]

theorem keeps_granted (hW : WellFormed s) (hown : Own s)
    {st : OciJanus.Auth.Delegation.State} (hrepo : req.scopeType = "repo")
    (hgrant : grantRole s.auth.state req id = .ok st) :
    Keeps s { s.setAuth st with grantedFor := noteGrant s req st.assignments } "" := by
  obtain ⟨added, hafter, hasked, hids⟩ : ∃ added, st.assignments = s.assignments ++ added ∧
      (∀ g ∈ added, Asked req g) ∧ (st.assignments.map (·.id)).Nodup := by
    rcases grantRole_assignments hrepo hgrant with hsame | ⟨g, hasked, hnew, hafter⟩
    · exact ⟨[], by rw [hsame, append_nil]; rfl, by simp, by rw [hsame]; exact hW.ids⟩
    · refine ⟨[g], hafter, by simpa using hasked, ?_⟩
      rw [hafter, map_append]
      refine hW.ids.append (by simp) ?_
      simpa [disjoint_left, State.assignments] using hnew
  have hold : ∀ g ∈ s.assignments, g ∈ st.assignments := by
    intro g hg
    rw [hafter]
    exact mem_append_left added hg
  refine keeps_of_subset (fun r hr => hr) ?_ ?_
  · exact {
      ids := hids
      slash := hW.slash
      names := hW.names
      known := hW.known
      noted := by
        intro i x hx
        rcases mem_noteGrant.mp hx with ⟨_, r, hfind, rfl⟩ | ⟨_, hx⟩
        · exact hW.known r (getRepositoryByFullName_eq_some hfind).1
        · exact hW.noted i x hx
      rooted := by
        intro g hg r hr hfor
        rcases mem_noteGrant.mp hfor with ⟨⟨g', hg', hid, hasked'⟩, r', hfind, hid'⟩ |
          ⟨⟨g', hg', hid⟩, hfor⟩
        · obtain rfl : g' = g := inj_on_of_nodup_map hids hg' hg hid
          obtain ⟨hmem, htenant, hname⟩ := getRepositoryByFullName_eq_some hfind
          obtain rfl : r' = r := s.repositories.eq_of_key_eq hmem hr hid'
          refine ⟨hasked'.1.trans htenant.symm, ?_⟩
          rw [hasked'.2.2.2, ← hname]
          rfl
        · obtain rfl : g' = g := inj_on_of_nodup_map hids (hold g' hg') hg hid
          exact hW.rooted g' hg' r hr hfor }
  · intro r hr g hg hmatches
    apply mem_noteGrant.mpr
    change g ∈ st.assignments at hg
    rw [hafter, mem_append] at hg
    rcases hg with hthere | hadded
    · exact Or.inr ⟨⟨g, hthere, rfl⟩, hown r hr g hthere hmatches⟩
    · have hg := hasked g hadded
      have htenant : req.tenantID = r.tenantID := hg.1.symm.trans hmatches.1
      have hname : req.scopeValue = r.org ++ "/" ++ r.name :=
        congrArg Scope.value (hg.2.2.2.symm.trans hmatches.2)
      refine Or.inl ⟨⟨g, by rw [hafter]; exact mem_append_right _ hadded, rfl, hg⟩, r, ?_, rfl⟩
      rw [htenant, hname]
      exact hW.getRepositoryByFullName_of_mem hr

theorem keeps_effect (hW : WellFormed s) (hown : Own s) {text : String}
    (h : Effect s s' text) : Keeps s s' text := by
  cases h with
  | none organizations =>
    exact keeps_of_subset (fun r hr => hr) ⟨hW.ids, hW.slash, hW.names, hW.known, hW.noted,
      hW.rooted⟩ hown
  | created organizations r hunused hslash hfree =>
    exact keeps_created hW hown organizations hunused hslash hfree
  | deleted p => exact keeps_deleted hW hown p
  | moved r place hmovable => exact hmovable.keeps_moved hW hown
  | stuck r place hmovable g hg hheld text hwarned => exact hmovable.keeps_stuck hW hg hheld hwarned
  | granted req id st hrepo hgrant => exact keeps_granted hW hown hrepo hgrant
  | revoked p => exact keeps_revoked hW hown p

/-- **When grants follow their repositories.** -/
theorem grants_follow_iff (auth : AuthService) (organizations : List (String × String))
    (hids : (auth.state.assignments.map (·.id)).Nodup) (acts : List Action) :
    Guarded step (fun s a => Own (step s a) ∧ Follows s a) (fresh auth organizations) acts ↔
      Guarded step Clean (fresh auth organizations) acts := by
  have hstart : WellFormed (fresh auth organizations) ∧ Own (fresh auth organizations) :=
    ⟨fresh_wf hids organizations, fun r hr => by cases hr⟩
  refine guarded_congr_of_invariant (I := fun s => WellFormed s ∧ Own s) ?_ hstart
    (guarded_of_forall (P := fun _ => True) fun _ _ => trivial)
  intro s a hI _
  obtain ⟨hiff, hwf⟩ := keeps_effect hI.1 hI.2 (step_effect hI.1.slash a)
  exact ⟨hiff, fun hclean => ⟨hwf hclean, (hiff.mpr hclean).1⟩⟩

def bob : String := "00000000-0000-4000-8000-000000000003"

def acme : State :=
  fresh
    { sampleAuth "admin" ⟨.org, "acme"⟩ with
      state :=
        ⟨[⟨sampleUser, sampleTenant, "ann", "ann@acme.io", "human", false⟩,
            ⟨bob, sampleTenant, "bob", "bob@acme.io", "human", false⟩],
          [⟨"g1", sampleTenant, sampleUser, "admin", ⟨.org, "acme"⟩, sampleUser⟩]⟩ }
    []

def ann : Context := ⟨sampleTenant, sampleUser, "human"⟩

def appDeleted : List Action :=
  [.create ann (some ⟨"acme", "app"⟩) "r1", .grant ann "acme" "app" (some ⟨bob, "writer"⟩) "g2",
    .delete ann "acme" "app"]

def appAgain : State := run step acme (appDeleted ++ [.create ann (some ⟨"acme", "app"⟩) "r2"])

def libBeside : State :=
  run step acme (appDeleted ++ [.create ann (some ⟨"acme", "lib"⟩) "r2",
    .grant ann "acme" "lib" (some ⟨bob, "writer"⟩) "g3"])

theorem recreated_repo_inherits :
    appAgain.repositories.rows = [⟨"r2", sampleTenant, "acme", "app"⟩] ∧
      ⟨"g2", sampleTenant, bob, "writer", repoScope "acme" "app", sampleUser⟩ ∈
        appAgain.assignments ∧
      appAgain.grantedFor "g2" = ["r1"] ∧ ¬ Own appAgain ∧
      warning libBeside (.rename ann "acme" "lib" (some "app")) ≠ "" := by
  decide +kernel

theorem renamed_repo_keeps :
    Guarded step (fun s a => Own (step s a) ∧ Follows s a) acme
      [.create ann (some ⟨"acme", "app"⟩) "r1", .grant ann "acme" "app" (some ⟨bob, "writer"⟩) "g2",
        .rename ann "acme" "app" (some "lib")] := by
  apply (grants_follow_iff _ _ (by decide) _).mpr
  exact ⟨by decide +kernel, by decide +kernel, by decide +kernel, trivial⟩

end OciJanus.Management.RepoGrants
