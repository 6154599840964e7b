import OciJanus.Auth.Roles
import OciJanus.Verified.Run

/-!
# Handing out roles

`GrantRole` runs the delegation guard; the initial role of `InviteUser` does not pass through it.
-/

namespace OciJanus.Auth.Delegation

open Auth.Roles Verified.Run Verified.GoStrings List

inductive Code where
  | invalidArgument
  | permissionDenied
  | alreadyExists
  | notFound
  | internal
  deriving DecidableEq

def verifyDelegationBound (callerAssignments : List RoleAssignment)
    (grantedRole scopeType scopeValue : String) : Except Code Unit :=
  if roleRank grantedRole = 0 then .error .invalidArgument
  else
    match ScopeType.ofString scopeType with
    | none => .error .permissionDenied
    | some t =>
      if callerAssignments.any fun a =>
          scopeDominates a.scope ⟨t, scopeValue⟩ && roleRank a.roleName ≥ roleRank grantedRole
      then .ok ()
      else .error .permissionDenied

structure User where
  (id tenantID username email kind : String)
  isGlobalAdmin : Bool
  deriving DecidableEq

structure State where
  users : List User
  assignments : List RoleAssignment

def uuidNil : String := "00000000-0000-0000-0000-000000000000"

def getUserByID (s : State) (id : String) : Option User := s.users.find? (·.id = id)

def getUserRoles (s : State) (userID tenantID : String) : List RoleAssignment :=
  s.assignments.filter fun a => a.userID = userID ∧ a.tenantID = tenantID

def roleNames : List String := ["owner", "admin", "writer", "reader"]

structure NewAssignment where
  (id tenantID userID roleName scopeType scopeValue grantedBy : String)

def NewAssignment.row (n : NewAssignment) (t : ScopeType) : RoleAssignment :=
  ⟨n.id, n.tenantID, n.userID, n.roleName, ⟨t, n.scopeValue⟩, n.grantedBy⟩

def insertAssignment (s : State) (n : NewAssignment) : Except Code State :=
  if n.roleName ∉ roleNames then .ok s
  else
    match ScopeType.ofString n.scopeType with
    | none => .error .internal
    | some t =>
      if s.users.all (·.id ≠ n.userID) ∨ s.assignments.any (·.id = n.id) then .error .internal
      else if s.assignments.any fun a =>
          a.userID = n.userID ∧ a.roleName = n.roleName ∧ a.scope = ⟨t, n.scopeValue⟩
      then .ok s
      else .ok { s with assignments := s.assignments ++ [n.row t] }

structure GrantRoleRequest where
  (tenantID userID role scopeType scopeValue grantedBy : String)

def delegationCheck (s : State) (req : GrantRoleRequest) : Except Code Unit :=
  if req.grantedBy = uuidNil then .ok ()
  else if (getUserByID s req.grantedBy).any (·.isGlobalAdmin) then .ok ()
  else
    verifyDelegationBound (getUserRoles s req.grantedBy req.tenantID) req.role req.scopeType
      req.scopeValue

def grantRole (s : State) (req : GrantRoleRequest) (id : String) : Except Code State :=
  if req.role = "" ∨ req.scopeType = "" ∨ req.scopeValue = "" then .error .invalidArgument
  else if req.scopeType = "org" ∧ req.scopeValue = "*" then .error .invalidArgument
  else
    match delegationCheck s req with
    | .error c => .error c
    | .ok () =>
      insertAssignment s ⟨id, req.tenantID, req.userID, req.role, req.scopeType,
        req.scopeValue, req.grantedBy⟩

def revokes (id tenantID expectedType expectedValue : String) (a : RoleAssignment) : Bool :=
  a.id = id ∧ a.tenantID = tenantID ∧
    (expectedType = "" ∨ ScopeType.ofString expectedType = some a.scope.type) ∧
    (expectedValue = "" ∨ a.scope.value = expectedValue)

def revokeRole (s : State) (id tenantID expectedType expectedValue : String) : Except Code State :=
  if s.assignments.any (revokes id tenantID expectedType expectedValue) then
    .ok { s with
      assignments := s.assignments.filter fun a =>
        !revokes id tenantID expectedType expectedValue a }
  else .error .notFound

structure InviteUserRequest where
  (tenantID email displayName invitedBy initialOrgRole initialOrgName : String)

structure Text where
  parseAddress : String → Option String
  isLetterOrDigit : Char → Bool

section Invite

variable (x : Text)

def validateEmail (s : String) : Bool :=
  0 < byteLen s && byteLen s ≤ 320 && trimSpace s == s && x.parseAddress s == some s

def validateDisplayName (s : String) : Bool :=
  0 < byteLen s && byteLen s ≤ 128 && !s.toList.any isControl

def usernameStep (out : List Char) (c : Char) : List Char :=
  if x.isLetterOrDigit c || c == '_' || c == '-' then c :: out
  else
    match out with
    | [] => []
    | '-' :: _ => out
    | _ => '-' :: out

def deriveInviteUsername (email : String) : String :=
  if email.toList.all (· != '@') then ""
  else
    let out := (email.toList.takeWhile (· != '@')).foldl (usernameStep x) []
    let name := (out.dropWhile (· == '-')).reverse.dropWhile (· == '-')
    if name.length < 3 then "" else String.ofList (name.take 64)

def createInvitedUser (s : State) (userID tenantID username email : String) : Except Code State :=
  if s.users.any fun u => u.tenantID = tenantID ∧ (u.username = username ∨ u.email = email)
  then .error .alreadyExists
  else if s.users.any (·.id = userID) then .error .internal
  else .ok { s with users := s.users ++ [⟨userID, tenantID, username, email, "human", false⟩] }

def grantInitialRole (s : State) (req : InviteUserRequest) (userID assignmentID : String) : State :=
  if req.initialOrgRole ≠ "" ∧ req.initialOrgName ≠ "" then
    match insertAssignment s ⟨assignmentID, req.tenantID, userID, req.initialOrgRole, "org",
      req.initialOrgName, req.invitedBy⟩ with
    | .ok s' => s'
    | .error _ => s
  else s

def inviteUser (s : State) (req : InviteUserRequest) (userID assignmentID : String) :
    Except Code State :=
  if req.email = "" ∨ req.displayName = "" then .error .invalidArgument
  else if (req.initialOrgRole = "") ≠ (req.initialOrgName = "") then .error .invalidArgument
  else if !validateEmail x req.email || !validateDisplayName req.displayName then
    .error .invalidArgument
  else if deriveInviteUsername x req.email = "" then .error .internal
  else
    match createInvitedUser s userID req.tenantID (deriveInviteUsername x req.email) req.email with
    | .error c => .error c
    | .ok s' => .ok (grantInitialRole s' req userID assignmentID)

end Invite

inductive Action where
  | grantRole (req : GrantRoleRequest) (id : String)
  | inviteUser (req : InviteUserRequest) (userID assignmentID : String)
  | revokeRole (id tenantID expectedType expectedValue : String)

def outcome (x : Text) (s : State) : Action → Except Code State
  | .grantRole req id => grantRole s req id
  | .inviteUser req u a => inviteUser x s req u a
  | .revokeRole id tenant et ev => revokeRole s id tenant et ev

def step (x : Text) (s : State) (a : Action) : State :=
  match outcome x s a with
  | .ok s' => s'
  | .error _ => s

def granter : Action → Option String
  | .grantRole req _ => some req.grantedBy
  | .inviteUser req _ _ => some req.invitedBy
  | .revokeRole _ _ _ _ => none

def Ordinary (s : State) (id : String) : Prop :=
  id ≠ uuidNil ∧ (getUserByID s id).any (·.isGlobalAdmin) = false

def Backed (s : State) (granter : String) (n : RoleAssignment) : Prop :=
  ∃ y ∈ s.assignments, y.userID = granter ∧ y.tenantID = n.tenantID ∧
    scopeDominates y.scope n.scope = true ∧ roleRank n.roleName ≤ roleRank y.roleName

def Allowed (s : State) (a : Action) : Prop :=
  (∀ g, granter a = some g → Ordinary s g) ∧ match a with
    | .inviteUser req _ _ =>
      req.initialOrgRole ≠ "" → verifyDelegationBound (getUserRoles s req.invitedBy req.tenantID)
          req.initialOrgRole "org" req.initialOrgName = .ok ()
    | _ => True

theorem verifyDelegationBound_ok {caller : List RoleAssignment} {role st v : String}
    (h : verifyDelegationBound caller role st v = .ok ()) :
    ∃ t, ScopeType.ofString st = some t ∧ ∃ y ∈ caller, scopeDominates y.scope ⟨t, v⟩ = true ∧
        roleRank role ≤ roleRank y.roleName := by
  unfold verifyDelegationBound at h
  split at h
  · cases h
  · split at h
    · cases h
    · rename_i t ht
      split at h
      · rename_i hany
        obtain ⟨y, hy, hyt⟩ := any_eq_true.mp hany
        obtain ⟨hdom, hrank⟩ := Bool.and_eq_true_iff.mp hyt
        exact ⟨t, ht, y, hy, hdom, of_decide_eq_true hrank⟩
      · cases h

variable {s s' : State} {tenant : String}

theorem backed_of_bound {n : NewAssignment} {t : ScopeType} {g : String}
    (ht : ScopeType.ofString n.scopeType = some t)
    (h : verifyDelegationBound (getUserRoles s g n.tenantID) n.roleName n.scopeType
      n.scopeValue = .ok ()) : Backed s g (n.row t) := by
  obtain ⟨t', ht', y, hy, hdom, hrank⟩ := verifyDelegationBound_ok h
  rw [ht] at ht'
  cases ht'
  obtain ⟨hmem, hsame⟩ := mem_filter.mp hy
  obtain ⟨huser, htenant⟩ := of_decide_eq_true hsame
  exact ⟨y, hmem, huser, htenant, hdom, hrank⟩

theorem insertAssignment_ok {n : NewAssignment} (h : insertAssignment s n = .ok s') :
    s'.assignments = s.assignments ∨ ∃ t, ScopeType.ofString n.scopeType = some t ∧
        s'.assignments = s.assignments ++ [n.row t] := by
  unfold insertAssignment at h
  split at h
  · cases h
    exact Or.inl rfl
  · split at h
    · cases h
    · rename_i t ht
      split_ifs at h
      · cases h
        exact Or.inl rfl
      · cases h
        exact Or.inr ⟨t, ht, rfl⟩

theorem delegationCheck_ok {req : GrantRoleRequest}
    (hord : Ordinary s req.grantedBy) (h : delegationCheck s req = .ok ()) :
    verifyDelegationBound (getUserRoles s req.grantedBy req.tenantID) req.role req.scopeType
      req.scopeValue = .ok () := by
  unfold delegationCheck at h
  rw [if_neg hord.1, hord.2] at h
  simpa using h

theorem grantRole_backed {req : GrantRoleRequest} {id : String}
    (hord : Ordinary s req.grantedBy) (h : grantRole s req id = .ok s') :
    ∀ n ∈ s'.assignments, n ∈ s.assignments ∨ Backed s req.grantedBy n := by
  unfold grantRole at h
  split_ifs at h
  cases hcheck : delegationCheck s req with
  | error c =>
    rw [hcheck] at h
    cases h
  | ok u =>
    rw [hcheck] at h
    have hbound := delegationCheck_ok hord hcheck
    intro n hn
    rcases insertAssignment_ok h with hsame | ⟨t, ht, hnew⟩
    · exact Or.inl (hsame ▸ hn)
    · rw [hnew, mem_append, mem_singleton] at hn
      rcases hn with hold | rfl
      · exact Or.inl hold
      · exact Or.inr (backed_of_bound ht hbound)

theorem revokeRole_subset {id et ev : String} (h : revokeRole s id tenant et ev = .ok s') :
    ∀ n ∈ s'.assignments, n ∈ s.assignments := by
  unfold revokeRole at h
  intro n hn
  split at h
  · cases h
    exact (mem_filter.mp hn).1
  · cases h

theorem createInvitedUser_assignments {u name email : String}
    (h : createInvitedUser s u tenant name email = .ok s') : s'.assignments = s.assignments := by
  unfold createInvitedUser at h
  split_ifs at h
  cases h
  rfl

theorem inviteUser_backed {x : Text} {req : InviteUserRequest} {u a : String}
    (hbound : req.initialOrgRole ≠ "" →
      verifyDelegationBound (getUserRoles s req.invitedBy req.tenantID) req.initialOrgRole
        "org" req.initialOrgName = .ok ()) (h : inviteUser x s req u a = .ok s') :
    ∀ n ∈ s'.assignments, n ∈ s.assignments ∨ Backed s req.invitedBy n := by
  unfold inviteUser at h
  split_ifs at h
  cases hcreate : createInvitedUser s u req.tenantID (deriveInviteUsername x req.email)
      req.email with
  | error c =>
    rw [hcreate] at h
    cases h
  | ok s₁ =>
    rw [hcreate] at h
    cases h
    have hsame := createInvitedUser_assignments hcreate
    intro n hn
    unfold grantInitialRole at hn
    split_ifs at hn with hrole
    · split at hn
      · rename_i s₂ hins
        rcases insertAssignment_ok hins with hnone | ⟨t, ht, hnew⟩
        · exact Or.inl (by rwa [hnone, hsame] at hn)
        · rw [hnew, hsame, mem_append, mem_singleton] at hn
          rcases hn with hold | rfl
          · exact Or.inl hold
          · exact Or.inr (backed_of_bound ht (hbound hrole.1))
      · exact Or.inl (hsame ▸ hn)
    · exact Or.inl (hsame ▸ hn)

theorem step_backed {x : Text} {a : Action} (hG : Allowed s a) :
    ∀ n ∈ (step x s a).assignments, n ∈ s.assignments ∨ ∃ g, granter a = some g ∧ Backed s g n := by
  unfold step
  intro n hn
  cases hout : outcome x s a with
  | error c =>
    rw [hout] at hn
    exact Or.inl hn
  | ok s' =>
    rw [hout] at hn
    cases a with
    | grantRole req id =>
      rcases grantRole_backed (hG.1 _ rfl) hout n hn with hold | hnew
      · exact Or.inl hold
      · exact Or.inr ⟨_, rfl, hnew⟩
    | inviteUser req u i =>
      rcases inviteUser_backed hG.2 hout n hn with hold | hnew
      · exact Or.inl hold
      · exact Or.inr ⟨_, rfl, hnew⟩
    | revokeRole id tenant et ev => exact Or.inl (revokeRole_subset hout n hn)

def ranksOver (s : State) (tenant : String) (scope : Scope) : List Nat :=
  (s.assignments.filter fun a =>
    a.tenantID = tenant ∧ scopeDominates a.scope scope = true).map fun a => roleRank a.roleName

def maxRank (s : State) (tenant : String) (scope : Scope) : Nat :=
  (ranksOver s tenant scope).foldr max 0

theorem foldr_max_le_iff {l : List Nat} {n : Nat} : l.foldr max 0 ≤ n ↔ ∀ k ∈ l, k ≤ n := by
  induction l with
  | nil => simp
  | cons k l ih => simp [ih]

theorem maxRank_le_iff {scope : Scope} {n : Nat} :
    maxRank s tenant scope ≤ n ↔
      ∀ a ∈ s.assignments, a.tenantID = tenant → scopeDominates a.scope scope = true →
        roleRank a.roleName ≤ n := by
  rw [maxRank, foldr_max_le_iff, ranksOver]
  constructor
  · intro h a ha htenant hdom
    exact h _ (mem_map.mpr ⟨a, mem_filter.mpr ⟨ha, by simp [htenant, hdom]⟩, rfl⟩)
  · intro h k hk
    obtain ⟨a, ha, rfl⟩ := mem_map.mp hk
    obtain ⟨hmem, hsame⟩ := mem_filter.mp ha
    obtain ⟨htenant, hdom⟩ := of_decide_eq_true hsame
    exact h a hmem htenant hdom

theorem roleRank_le_maxRank {a : RoleAssignment} {scope : Scope}
    (ha : a ∈ s.assignments) (hdom : scopeDominates a.scope scope = true) :
    roleRank a.roleName ≤ maxRank s a.tenantID scope :=
  maxRank_le_iff.mp (le_refl _) a ha rfl hdom

theorem step_maxRank {x : Text} {a : Action} (hG : Allowed s a) (tenant : String) (scope : Scope) :
    maxRank (step x s a) tenant scope ≤ maxRank s tenant scope := by
  apply maxRank_le_iff.mpr
  intro n hn htenant hdom
  rcases step_backed hG n hn with hold | ⟨g, _, y, hy, _, hytenant, hydom, hrank⟩
  · rw [← htenant]
    exact roleRank_le_maxRank hold hdom
  · calc roleRank n.roleName ≤ roleRank y.roleName := hrank
      _ ≤ maxRank s y.tenantID scope :=
          roleRank_le_maxRank hy (scopeDominates_trans hydom hdom)
      _ = maxRank s tenant scope := by rw [hytenant, htenant]

theorem run_maxRank {x : Text} {acts : List Action}
    (hG : Guarded (step x) Allowed s acts) (tenant : String) (scope : Scope) :
    maxRank (run (step x) s acts) tenant scope ≤ maxRank s tenant scope := by
  refine run_invariant (I := fun s' => maxRank s' tenant scope ≤ maxRank s tenant scope)
    ?_ (le_refl _) hG
  intro s' a hle hallowed
  exact le_trans (step_maxRank hallowed tenant scope) hle

def CreatesBacked (x : Text) (s : State) (acts : List Action) : Prop :=
  ∀ before a later, acts = before ++ a :: later →
    ∀ n ∈ (run (step x) s (before ++ [a])).assignments, n ∉ (run (step x) s before).assignments →
        ∃ g, granter a = some g ∧ Backed (run (step x) s before) g n

def ReachNeverGrows (x : Text) (s : State) (acts : List Action) : Prop :=
  ∀ before later, acts = before ++ later → ∀ tenant scope,
    maxRank (run (step x) s acts) tenant scope ≤ maxRank (run (step x) s before) tenant scope

/-- **Nothing unbacked is created and no reach grows.** -/
theorem delegation_runs_bounded (x : Text) (s : State) (acts : List Action)
    (hG : Guarded (step x) Allowed s acts) : CreatesBacked x s acts ∧ ReachNeverGrows x s acts := by
  constructor
  · rintro before a later rfl n hn hnew
    obtain ⟨_, hallowed, _⟩ := guarded_append.mp hG
    rw [run_append] at hn
    rcases step_backed hallowed n hn with hold | hbacked
    · exact absurd hold hnew
    · exact hbacked
  · rintro before later rfl tenant scope
    rw [run_append]
    exact run_maxRank (guarded_append.mp hG).2 tenant scope

def plainText : Text := ⟨some, Char.isAlphanum⟩

def tenantOfAnn : State :=
  ⟨[⟨"ann", "t", "ann", "ann@a.b", "human", false⟩],
    [⟨"r1", "t", "ann", "admin", ⟨.tenant, "t"⟩, uuidNil⟩]⟩

def inviteBob (role : String) : Action :=
  .inviteUser ⟨"t", "bob@a.b", "Bob", "ann", role, "acme"⟩ "bob" "r2"

theorem admin_invite_bounded :
    CreatesBacked plainText tenantOfAnn
        [inviteBob "admin", .grantRole ⟨"t", "ann", "writer", "repo", "acme/app", "bob"⟩ "r3"] ∧
      ReachNeverGrows plainText tenantOfAnn [inviteBob "admin",
          .grantRole ⟨"t", "ann", "writer", "repo", "acme/app", "bob"⟩ "r3"] := by
  apply delegation_runs_bounded
  refine ⟨⟨?_, ?_⟩, ⟨?_, trivial⟩, trivial⟩
  · rintro g ⟨⟩
    exact ⟨by decide, by decide +kernel⟩
  · intro _
    decide +kernel
  · rintro g ⟨⟩
    exact ⟨by decide, by decide +kernel⟩

theorem owner_invite_unbounded :
    ¬ ∀ (x : Text) (s : State) (acts : List Action),
      Guarded (step x) (fun s a => ∀ g, granter a = some g → Ordinary s g) s acts →
        CreatesBacked x s acts ∧ ReachNeverGrows x s acts := by
  intro h
  have hord : Guarded (step plainText) (fun s a => ∀ g, granter a = some g → Ordinary s g)
      tenantOfAnn [inviteBob "owner"] := by
    refine ⟨?_, trivial⟩
    rintro g ⟨⟩
    exact ⟨by decide, by decide +kernel⟩
  have hgrown := (h plainText tenantOfAnn [inviteBob "owner"] hord).2 [] [inviteBob "owner"]
    rfl "t" ⟨.org, "acme"⟩
  exact absurd hgrown (by decide +kernel)

end OciJanus.Auth.Delegation
