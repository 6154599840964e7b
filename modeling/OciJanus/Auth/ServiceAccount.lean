import OciJanus.Auth.ApiKey
import OciJanus.Auth.Delegation

/-!
# Service accounts

`AllowedScopes` is checked against the creator's roles in `Create` and not in `Update`.
-/

namespace OciJanus.Auth.ServiceAccount

open Verified Sha256 Run ExpiringStore Auth.Token Auth.Roles Auth.ApiKey Auth.Delegation List

structure World where
  roles : Delegation.State
  serviceAccounts : List ServiceAccount
  apiKeys : List APIKey
  redis : Redis
  now : Int
  issued : List Claims

def tables (w : World) : Tables where
  apiKeys id := w.apiKeys.find? (·.id = id)
  serviceAccounts id := w.serviceAccounts.find? (·.id = id)

def effectiveActionSet (callerAssignments : List RoleAssignment) : List String :=
  callerAssignments.flatMap fun a => effectiveActionsForRole a.roleName

def verifyAllowedScopesSubset (callerAssignments : List RoleAssignment)
    (requestedScopes : List String) : Except Code Unit :=
  if requestedScopes.all (· ∈ effectiveActionSet callerAssignments) then .ok ()
  else .error .permissionDenied

structure ServiceAccountInput where
  (tenantID name : String)
  allowedScopes : List String
  actorUserID : String

def getHumanByID (s : Delegation.State) (id : String) : Option User :=
  s.users.find? fun u => u.id = id ∧ u.kind = "human"

def isGlobalAdmin (s : Delegation.State) (actor : String) : Bool :=
  (getHumanByID s actor).any (·.isGlobalAdmin)

def creatorRoles (s : Delegation.State) (actor tenantID : String) : List RoleAssignment :=
  if (getHumanByID s actor).isSome then getUserRoles s actor tenantID else []

def creatorCheck (w : World) (inp : ServiceAccountInput) : Except Code Unit :=
  if isGlobalAdmin w.roles inp.actorUserID then .ok ()
  else
    verifyAllowedScopesSubset (creatorRoles w.roles inp.actorUserID inp.tenantID) inp.allowedScopes

def shadowUser (inp : ServiceAccountInput) (saID shadowID : String) : User :=
  ⟨shadowID, inp.tenantID, "sa-" ++ String.ofList (saID.toList.take 8),
    "sa+" ++ saID ++ "@internal.invalid", "service_account", false⟩

def createAtomic (w : World) (inp : ServiceAccountInput) (saID shadowID : String) :
    Except Code World :=
  if w.roles.users.any (·.id = shadowID) ∨ w.roles.users.all (·.id ≠ inp.actorUserID) ∨
      w.roles.users.any (fun u => u.tenantID = inp.tenantID ∧
        (u.username = (shadowUser inp saID shadowID).username ∨
          u.email = (shadowUser inp saID shadowID).email)) then .error .internal
  else if w.serviceAccounts.any fun sa =>
      sa.id = saID ∨ sa.shadowUserID = shadowID ∨ (sa.tenantID = inp.tenantID ∧ sa.name = inp.name)
  then .error .alreadyExists
  else
    .ok { w with
      roles := { w.roles with users := w.roles.users ++ [shadowUser inp saID shadowID] }
      serviceAccounts := w.serviceAccounts ++
        [⟨saID, inp.tenantID, shadowID, inp.name, inp.allowedScopes, none⟩] }

def create (w : World) (inp : ServiceAccountInput) (saID shadowID : String) : Except Code World :=
  match creatorCheck w inp with
  | .error c => .error c
  | .ok () => createAtomic w inp saID shadowID

structure UpdateServiceAccountInput where
  (id tenantID : String)
  name : Option String
  allowedScopes : Option (List String)
  disabled : Option Bool
  actorUserID : String

def selects (inp : UpdateServiceAccountInput) (sa : ServiceAccount) : Bool :=
  sa.id = inp.id ∧ sa.tenantID = inp.tenantID

def disabledAfter (now : Int) : Option Bool → Option Int → Option Int
  | none, old => old
  | some true, _ => some now
  | some false, _ => none

def updateRow (now : Int) (inp : UpdateServiceAccountInput) (sa : ServiceAccount) :
    ServiceAccount :=
  { sa with
    name := inp.name.getD sa.name
    allowedScopes := inp.allowedScopes.getD sa.allowedScopes
    disabledAt := disabledAfter now inp.disabled sa.disabledAt }

def updateRows (now : Int) (inp : UpdateServiceAccountInput) (rows : List ServiceAccount) :
    List ServiceAccount :=
  rows.map fun sa => if selects inp sa then updateRow now inp sa else sa

def repoUpdate (w : World) (inp : UpdateServiceAccountInput) :
    Except Code (ServiceAccount × World) :=
  match w.serviceAccounts.find? (selects inp) with
  | none => .error .notFound
  | some sa =>
    if w.serviceAccounts.any fun other =>
        other.id ≠ sa.id ∧ other.tenantID = sa.tenantID ∧ inp.name = some other.name
    then .error .alreadyExists
    else
      .ok (updateRow w.now inp sa,
        { w with serviceAccounts := updateRows w.now inp w.serviceAccounts })

def update (w : World) (inp : UpdateServiceAccountInput) : Except Code World :=
  match repoUpdate w { inp with disabled := none } with
  | .error c => .error c
  | .ok p => .ok p.2

def setDisabled (w : World) (id tenantID : String) (disabled : Bool) : Except Code World :=
  match repoUpdate w ⟨id, tenantID, none, none, some disabled, ""⟩ with
  | .error c => .error c
  | .ok (sa, w') =>
    .ok { w' with
      redis := if disabled then revokePrincipal w'.redis w'.now sa.shadowUserID
        else restorePrincipal w'.redis sa.shadowUserID }

def cascade (w : World) (sa : ServiceAccount) : World :=
  { w with
    roles := ⟨w.roles.users.filter (·.id ≠ sa.shadowUserID),
      w.roles.assignments.filter (·.userID ≠ sa.shadowUserID)⟩
    serviceAccounts := w.serviceAccounts.filter (·.shadowUserID ≠ sa.shadowUserID)
    apiKeys := w.apiKeys.filter fun k =>
      k.serviceAccountID ≠ some sa.id ∧ k.userID ≠ some sa.shadowUserID }

def delete (w : World) (id : String) : Except Code World :=
  match w.serviceAccounts.find? (·.id = id) with
  | none => .error .notFound
  | some sa =>
    .ok { cascade w sa with redis := restorePrincipal w.redis sa.shadowUserID }

structure IssueKeyInput where
  (saID tenantID name : String)
  scopes : List String

def issueKey (w : World) (inp : IssueKeyInput) (keyID keyHash : String) : Except Code World :=
  match w.serviceAccounts.find? (·.id = inp.saID) with
  | none => .error .notFound
  | some sa =>
    if sa.tenantID ≠ inp.tenantID then .error .notFound
    else if inp.scopes.any (· ∉ sa.allowedScopes) then .error .invalidArgument
    else if w.apiKeys.any fun k =>
        k.id = keyID ∨ (k.serviceAccountID = some inp.saID ∧ k.name = inp.name)
    then .error .alreadyExists
    else
      .ok { w with
        apiKeys := w.apiKeys ++ [⟨keyID, inp.tenantID, none, some inp.saID, inp.name, keyHash,
          inp.scopes, none, true⟩] }

def sign (w : World) (c : Claims) : World :=
  { w with
    redis := recordIssuedJTI w.redis w.now c.subject c.id
    issued := w.issued ++ [c] }

def refresh (verified : Bytes → Option Claims) (w : World) (tok : Bytes) (jti : String) : World :=
  match refreshToken verified w.redis w.now jti tok with
  | .ok p => { w with redis := p.2, issued := w.issued ++ [p.1] }
  | .error _ => w

inductive Action where
  | tick (d : Nat)
  | role (a : Delegation.Action)
  | create (inp : ServiceAccountInput) (saID shadowID : String)
  | update (inp : UpdateServiceAccountInput)
  | issueKey (inp : IssueKeyInput) (keyID keyHash : String)
  | setDisabled (id tenantID : String) (disabled : Bool)
  | delete (id : String)
  | issueToken (jti userID tenantID : String) (access : List RepositoryAccess)
      (roles : List String) (isGlobalAdmin : Bool) (principalKind : String)
      (amr : List String) (sid : String)
  | issueWorkloadToken (jti userID tenantID trustID : String) (access : List RepositoryAccess)
  | refreshToken (tok : Bytes) (jti : String)

section Step

variable (x : Text) (verified : Bytes → Option Claims)

def outcome (w : World) : Action → Except Code World
  | .create inp saID shadowID => create w inp saID shadowID
  | .update inp => update w inp
  | .issueKey inp keyID keyHash => issueKey w inp keyID keyHash
  | .setDisabled id tenantID disabled => setDisabled w id tenantID disabled
  | .delete id => delete w id
  | .tick d => .ok { w with now := w.now + d }
  | .role a => .ok { w with roles := Delegation.step x w.roles a }
  | .issueToken jti u t access roles ga kind amr sid =>
    .ok (sign w (issueToken w.now jti u t access roles ga kind amr sid))
  | .issueWorkloadToken jti u t trust access =>
    .ok (sign w (issueWorkloadToken w.now jti u t trust access))
  | .refreshToken tok jti => .ok (refresh verified w tok jti)

def step (w : World) (a : Action) : World :=
  match outcome x verified w a with
  | .ok w' => w'
  | .error _ => w

end Step

variable {x : Text} {verified : Bytes → Option Claims}

variable {w w' : World} {inp : ServiceAccountInput} {saID shadowID : String}

theorem createAtomic_accounts (h : createAtomic w inp saID shadowID = .ok w') :
    w'.serviceAccounts =
      w.serviceAccounts ++ [⟨saID, inp.tenantID, shadowID, inp.name, inp.allowedScopes, none⟩] := by
  unfold createAtomic at h
  split_ifs at h
  cases h
  rfl

theorem create_accounts (h : create w inp saID shadowID = .ok w') :
    creatorCheck w inp = .ok () ∧ w'.serviceAccounts = w.serviceAccounts ++
          [⟨saID, inp.tenantID, shadowID, inp.name, inp.allowedScopes, none⟩] := by
  unfold create at h
  cases hcheck : creatorCheck w inp with
  | error c =>
    rw [hcheck] at h
    cases h
  | ok u =>
    rw [hcheck] at h
    exact ⟨rfl, createAtomic_accounts h⟩

theorem create_fresh (h : create w inp saID shadowID = .ok w') :
    ∀ sa ∈ w.serviceAccounts, sa.id ≠ saID ∧ sa.shadowUserID ≠ shadowID := by
  unfold create at h
  split at h
  · cases h
  · unfold createAtomic at h
    split_ifs at h with _ hfresh
    intro sa hsa
    simp only [any_eq_true, not_exists, not_and, decide_eq_true_eq, not_or] at hfresh
    exact ⟨(hfresh sa hsa).1, (hfresh sa hsa).2.1⟩

theorem mem_updateRows {now : Int} {inp : UpdateServiceAccountInput}
    {rows : List ServiceAccount} {sa : ServiceAccount} (h : sa ∈ updateRows now inp rows) :
    sa ∈ rows ∨ ∃ old ∈ rows, selects inp old = true ∧ sa = updateRow now inp old := by
  obtain ⟨old, hmem, rfl⟩ := mem_map.mp h
  by_cases hsel : selects inp old = true
  · exact Or.inr ⟨old, hmem, hsel, by simp [hsel]⟩
  · exact Or.inl (by simpa [hsel] using hmem)

theorem map_updateRows {β : Type*} {f : ServiceAccount → β}
    (hf : ∀ now inp sa, f (updateRow now inp sa) = f sa) (now : Int)
    (inp : UpdateServiceAccountInput) (rows : List ServiceAccount) :
    (updateRows now inp rows).map f = rows.map f := by
  unfold updateRows
  rw [map_map]
  apply map_congr_left
  intro sa _
  show f (if selects inp sa then updateRow now inp sa else sa) = f sa
  split
  · exact hf now inp sa
  · rfl

theorem repoUpdate_ok {inp : UpdateServiceAccountInput}
    {p : ServiceAccount × World} (h : repoUpdate w inp = .ok p) :
    ∃ sa ∈ w.serviceAccounts, selects inp sa = true ∧ p.1 = updateRow w.now inp sa ∧
      p.2 = { w with serviceAccounts := updateRows w.now inp w.serviceAccounts } := by
  unfold repoUpdate at h
  cases hfind : w.serviceAccounts.find? (selects inp) with
  | none =>
    rw [hfind] at h
    cases h
  | some sa =>
    simp only [hfind] at h
    split_ifs at h
    cases h
    exact ⟨sa, mem_of_find?_eq_some hfind, List.find?_some hfind, rfl, rfl⟩

theorem update_ok {inp : UpdateServiceAccountInput} (h : update w inp = .ok w') :
    w' = { w with
      serviceAccounts := updateRows w.now { inp with disabled := none } w.serviceAccounts } := by
  unfold update at h
  cases hrepo : repoUpdate w { inp with disabled := none } with
  | error c =>
    rw [hrepo] at h
    cases h
  | ok p =>
    rw [hrepo] at h
    cases h
    obtain ⟨_, _, _, _, hp⟩ := repoUpdate_ok hrepo
    exact hp

def disabledInput (id tenantID : String) (disabled : Bool) : UpdateServiceAccountInput :=
  ⟨id, tenantID, none, none, some disabled, ""⟩

theorem setDisabled_ok {id tenantID : String} {disabled : Bool}
    (h : setDisabled w id tenantID disabled = .ok w') :
    ∃ sa ∈ w.serviceAccounts, sa.id = id ∧
      w' = { w with
        serviceAccounts :=
          updateRows w.now (disabledInput id tenantID disabled) w.serviceAccounts
        redis := if disabled then revokePrincipal w.redis w.now sa.shadowUserID
          else restorePrincipal w.redis sa.shadowUserID } := by
  unfold setDisabled at h
  cases hrepo : repoUpdate w ⟨id, tenantID, none, none, some disabled, ""⟩ with
  | error c =>
    rw [hrepo] at h
    cases h
  | ok p =>
    rw [hrepo] at h
    obtain ⟨row, w₁⟩ := p
    obtain ⟨sa, hmem, hsel, hrow, hw⟩ := repoUpdate_ok hrepo
    simp only at hrow hw
    subst hrow hw
    cases h
    exact ⟨sa, hmem, (of_decide_eq_true hsel).1, rfl⟩

theorem delete_ok {id : String} (h : delete w id = .ok w') :
    ∃ sa ∈ w.serviceAccounts, sa.id = id ∧
      w' = { cascade w sa with redis := restorePrincipal w.redis sa.shadowUserID } := by
  unfold delete at h
  cases hfind : w.serviceAccounts.find? (·.id = id) with
  | none =>
    rw [hfind] at h
    cases h
  | some sa =>
    rw [hfind] at h
    cases h
    exact ⟨sa, mem_of_find?_eq_some hfind, by simpa using List.find?_some hfind, rfl⟩

theorem issueKey_accounts {inp : IssueKeyInput} {keyID keyHash : String}
    (h : issueKey w inp keyID keyHash = .ok w') :
    w'.serviceAccounts = w.serviceAccounts ∧ w'.redis = w.redis ∧ w'.now = w.now ∧
      w'.issued = w.issued := by
  unfold issueKey at h
  split at h
  · cases h
  · split_ifs at h
    cases h
    exact ⟨rfl, rfl, rfl, rfl⟩

theorem refresh_accounts (w : World) (tok : Bytes) (jti : String) :
    (refresh verified w tok jti).serviceAccounts = w.serviceAccounts := by
  unfold refresh
  split <;> rfl

theorem step_accounts (w : World) (a : Action) :
    ∀ sa ∈ (step x verified w a).serviceAccounts,
      (∃ old ∈ w.serviceAccounts, old.id = sa.id ∧ old.allowedScopes = sa.allowedScopes) ∨
      (∃ inp saID shadowID, a = .create inp saID shadowID ∧ creatorCheck w inp = .ok () ∧
        sa.tenantID = inp.tenantID ∧ sa.allowedScopes = inp.allowedScopes) ∨
      ∃ inp, a = .update inp ∧ sa.tenantID = inp.tenantID ∧
        inp.allowedScopes = some sa.allowedScopes := by
  intro sa hsa
  unfold step at hsa
  cases hout : outcome x verified w a with
  | error c =>
    rw [hout] at hsa
    exact Or.inl ⟨sa, hsa, rfl, rfl⟩
  | ok w' =>
    rw [hout] at hsa
    cases a with
    | create inp saID shadowID =>
      obtain ⟨hcheck, hnew⟩ := create_accounts hout
      rw [hnew, mem_append, mem_singleton] at hsa
      rcases hsa with hold | rfl
      · exact Or.inl ⟨sa, hold, rfl, rfl⟩
      · exact Or.inr (Or.inl ⟨inp, saID, shadowID, rfl, hcheck, rfl, rfl⟩)
    | update inp =>
      rw [update_ok hout] at hsa
      rcases mem_updateRows hsa with hold | ⟨old, hold, hsel, rfl⟩
      · exact Or.inl ⟨sa, hold, rfl, rfl⟩
      · cases hscopes : inp.allowedScopes with
        | none => exact Or.inl ⟨old, hold, rfl, by simp [updateRow]⟩
        | some scopes =>
          refine Or.inr (Or.inr ⟨inp, rfl, ?_, by simp [updateRow, hscopes]⟩)
          exact (of_decide_eq_true hsel).2
    | setDisabled id tenantID disabled =>
      obtain ⟨_, _, _, rfl⟩ := setDisabled_ok hout
      rcases mem_updateRows hsa with hold | ⟨old, hold, _, rfl⟩
      · exact Or.inl ⟨sa, hold, rfl, rfl⟩
      · exact Or.inl ⟨old, hold, rfl, rfl⟩
    | delete id =>
      obtain ⟨_, _, _, rfl⟩ := delete_ok hout
      exact Or.inl ⟨sa, (mem_filter.mp hsa).1, rfl, rfl⟩
    | issueKey inp keyID keyHash =>
      rw [(issueKey_accounts hout).1] at hsa
      exact Or.inl ⟨sa, hsa, rfl, rfl⟩
    | refreshToken tok jti =>
      cases hout
      rw [refresh_accounts] at hsa
      exact Or.inl ⟨sa, hsa, rfl, rfl⟩
    | tick | role | issueToken | issueWorkloadToken =>
      cases hout
      exact Or.inl ⟨sa, hsa, rfl, rfl⟩

def Within (s : Delegation.State) (actor tenantID : String) (scopes : List String) : Prop :=
  ∀ scope ∈ scopes, ∃ r ∈ getUserRoles s actor tenantID, Implied r.roleName scope

theorem verifyAllowedScopesSubset_ok {caller : List RoleAssignment} {scopes : List String}
    (h : verifyAllowedScopesSubset caller scopes = .ok ()) :
    ∀ scope ∈ scopes, ∃ r ∈ caller, Implied r.roleName scope := by
  unfold verifyAllowedScopesSubset at h
  split_ifs at h with hall
  intro scope hscope
  have hmem := of_decide_eq_true (all_eq_true.mp hall scope hscope)
  obtain ⟨r, hr, hact⟩ := mem_flatMap.mp hmem
  exact ⟨r, hr, (mem_effectiveActionsForRole_iff r.roleName scope).mp hact⟩

theorem creatorCheck_ok (h : creatorCheck w inp = .ok ()) :
    isGlobalAdmin w.roles inp.actorUserID = true ∨
      Within w.roles inp.actorUserID inp.tenantID inp.allowedScopes := by
  unfold creatorCheck at h
  split_ifs at h with hadmin
  · exact Or.inl hadmin
  · right
    intro scope hscope
    obtain ⟨r, hr, himp⟩ := verifyAllowedScopesSubset_ok h scope hscope
    unfold creatorRoles at hr
    split_ifs at hr
    · exact ⟨r, hr, himp⟩
    · cases hr

def UpdateWithin (w : World) : Action → Prop
  | .update inp => ∀ scopes, inp.allowedScopes = some scopes →
      isGlobalAdmin w.roles inp.actorUserID = true ∨
        verifyAllowedScopesSubset (getUserRoles w.roles inp.actorUserID inp.tenantID) scopes =
          .ok ()
  | _ => True

def author : Action → Option (String × String)
  | .create inp _ _ => some (inp.actorUserID, inp.tenantID)
  | .update inp => some (inp.actorUserID, inp.tenantID)
  | _ => none

theorem step_within {a : Action} (hG : UpdateWithin w a) :
    ∀ sa ∈ (step x verified w a).serviceAccounts,
      (∃ old ∈ w.serviceAccounts, old.id = sa.id ∧ old.allowedScopes = sa.allowedScopes) ∨
      ∃ actor, author a = some (actor, sa.tenantID) ∧ (isGlobalAdmin w.roles actor = true ∨
          Within w.roles actor sa.tenantID sa.allowedScopes) := by
  intro sa hsa
  rcases step_accounts w a sa hsa with
    hold | ⟨inp, saID, shadowID, rfl, hcheck, htenant, hscopes⟩ | ⟨inp, rfl, htenant, hscopes⟩
  · exact Or.inl hold
  · right
    refine ⟨inp.actorUserID, by rw [htenant]; rfl, ?_⟩
    rw [htenant, hscopes]
    exact creatorCheck_ok hcheck
  · right
    refine ⟨inp.actorUserID, by rw [htenant]; rfl, ?_⟩
    rw [htenant]
    rcases hG sa.allowedScopes hscopes with hadmin | hsub
    · exact Or.inl hadmin
    · exact Or.inr (verifyAllowedScopesSubset_ok hsub)

def KeysWithin (w : World) : Prop :=
  ∀ (argon2 : String → String → Option Bool) (hit : Bool) (opts : ValidateAPIKeyOpts)
    (now : Int) (vk : ValidatedKey) (key : APIKey) (saID : String),
    (tables w).apiKeys opts.keyID = some key → key.serviceAccountID = some saID →
      validateAPIKey argon2 (tables w) hit opts now = .ok vk →
        ∃ sa ∈ w.serviceAccounts, sa.id = saID ∧
          ∀ scope ∈ vk.effectiveScopes, scope ∈ sa.allowedScopes

theorem key_within_allowedScopes (w : World) : KeysWithin w := by
  intro argon2 hit opts now vk key saID hkey howner hvalid
  obtain ⟨key', hkey', hent⟩ := validateAPIKey_ok hvalid
  rw [hkey] at hkey'
  cases hkey'
  cases hent with
  | human u hhuman _ _ =>
    rw [howner] at hhuman
    cases hhuman
  | account saID' sa howner' hrow _ _ _ _ hscopes _ =>
    rw [howner] at howner'
    cases howner'
    refine ⟨sa, mem_of_find?_eq_some hrow, by simpa using List.find?_some hrow, ?_⟩
    intro scope hscope
    rw [hscopes] at hscope
    exact of_decide_eq_true (mem_filter.mp hscope).2

def ScopesBacked (x : Text) (verified : Bytes → Option Claims) (w : World)
    (acts : List Action) : Prop :=
  ∀ before a later, acts = before ++ a :: later →
    ∀ sa ∈ (run (step x verified) w (before ++ [a])).serviceAccounts,
      (∀ old ∈ (run (step x verified) w before).serviceAccounts, old.id = sa.id →
        old.allowedScopes ≠ sa.allowedScopes) →
      ∃ actor, author a = some (actor, sa.tenantID) ∧
        (isGlobalAdmin (run (step x verified) w before).roles actor = true ∨
          Within (run (step x verified) w before).roles actor sa.tenantID sa.allowedScopes)

/-- **Service accounts do not launder authority** when updates keep to the
rule of creation. -/
theorem service_accounts_bounded (x : Text) (verified : Bytes → Option Claims) (w : World)
    (acts : List Action) (hG : Guarded (step x verified) UpdateWithin w acts) :
    ScopesBacked x verified w acts ∧
      ∀ before later, acts = before ++ later → KeysWithin (run (step x verified) w before) := by
  constructor
  · rintro before a later rfl sa hsa hchanged
    obtain ⟨_, hstep, _⟩ := guarded_append.mp hG
    rw [run_append] at hsa
    rcases step_within hstep sa hsa with ⟨old, hold, hid, hsame⟩ | hbacked
    · exact absurd hsame (hchanged old hold hid)
    · exact hbacked
  · intro before later _
    exact key_within_allowedScopes _

def worldOfAnn : World where
  roles := ⟨[⟨"ann", "t", "ann", "ann@a.b", "human", false⟩],
    [⟨"r1", "t", "ann", "reader", ⟨.org, "acme"⟩, uuidNil⟩]⟩
  serviceAccounts := []
  apiKeys := []
  redis := Store.empty
  now := 0
  issued := []

def createBot (scopes : List String) : Action :=
  .create ⟨"t", "bot", scopes, "ann"⟩ "sa1" "shadow1"

def updateBot (scopes : List String) : Action :=
  .update ⟨"sa1", "t", none, some scopes, none, "ann"⟩

theorem reader_bot_bounded :
    ScopesBacked plainText (fun _ => none) worldOfAnn
        [createBot ["pull"], updateBot [], updateBot ["pull"]] ∧
      ∀ before later, [createBot ["pull"], updateBot [], updateBot ["pull"]] = before ++ later →
        KeysWithin (run (step plainText (fun _ => none)) worldOfAnn before) := by
  apply service_accounts_bounded
  refine ⟨trivial, ?_, ?_, trivial⟩
  · rintro scopes ⟨⟩
    exact Or.inr (by decide +kernel)
  · rintro scopes ⟨⟩
    exact Or.inr (by decide +kernel)

theorem reader_bot_deletes :
    ¬ ∀ (x : Text) (verified : Bytes → Option Claims) (w : World) (acts : List Action),
      ScopesBacked x verified w acts := by
  intro h
  have hmem : (⟨"sa1", "t", "shadow1", "bot", ["delete"], none⟩ : ServiceAccount) ∈
      (run (step plainText (fun _ => none)) worldOfAnn
        ([createBot ["pull"]] ++ [updateBot ["delete"]])).serviceAccounts := by
    decide +kernel
  have hchanged : ∀ old ∈ (run (step plainText (fun _ => none)) worldOfAnn
      [createBot ["pull"]]).serviceAccounts, old.id = "sa1" → old.allowedScopes ≠ ["delete"] := by
    decide +kernel
  obtain ⟨actor, hauthor, hback⟩ := h plainText (fun _ => none) worldOfAnn
    [createBot ["pull"], updateBot ["delete"]] [createBot ["pull"]] (updateBot ["delete"]) [] rfl
    _ hmem hchanged
  cases hauthor
  have hroles : getUserRoles (run (step plainText (fun _ => none)) worldOfAnn
      [createBot ["pull"]]).roles "ann" "t" =
        [⟨"r1", "t", "ann", "reader", ⟨.org, "acme"⟩, uuidNil⟩] := by
    decide +kernel
  rcases hback with hadmin | hwithin
  · exact absurd hadmin (by decide +kernel)
  · obtain ⟨r, hr, himp⟩ := hwithin "delete" (by simp)
    rw [hroles] at hr
    cases mem_singleton.mp hr
    exact absurd himp (by unfold Implied; decide)

end OciJanus.Auth.ServiceAccount
