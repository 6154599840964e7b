import OciJanus.Auth.Login

/-!
# Issuing and revoking, step by step

Processes that take one atomic step at a time. `uuid.New` never repeats, and no UUID prints as the
empty text.
-/

namespace OciJanus.Auth.DisableUser

open Verified Sha256 Run ExpiringStore KeyedTable Auth.Token Auth.Roles Auth.Login Function

/-- Where a call stands between two of its steps. -/
inductive Proc where
  | idle
  | passwordStep (user : Account) (password : String)
  | authenticated (user : Account)
  | validated (c : Claims)
  | signed (c : Claims) (old : Option Claims)
  | recorded (old : Claims)
  | passwordChecked (userID newHash : String)
  | marked (userID : String) (disable : Bool)
  | revoking (userID : String) (jtis : List String) (disable : Bool)
  | revoked (userID : String) (disable : Bool)
  deriving DecidableEq

/-- `issued` lists every token that was signed, `procs` the calls under way. -/
structure World where
  accounts : Accounts
  assignments : List RoleAssignment
  redis : Redis
  now : Int
  issued : List Claims
  procs : Nat → Proc

structure Env where
  argon2 : String → String → Option Bool
  (requireMFA validatePassword : String → Bool)
  verified : Bytes → Option Claims

inductive Action where
  | tick (d : Nat)
  | loginRead (p : Nat) (tenantID username password : String)
  | loginVerify (p : Nat)
  | loginIssue (p : Nat) (jti sid : String)
  | refreshValidate (p : Nat) (tok : Bytes)
  | refreshIssue (p : Nat) (jti : String)
  | record (p : Nat)
  | revokeOld (p : Nat)
  | changePassword (p : Nat) (userID current new newHash : String)
  | writePassword (p : Nat)
  | setUserDisabled (p : Nat) (tenantID userID : String) (disabled : Bool)
  | readSet (p : Nat)
  | writeRevoked (p : Nat)
  | clearSet (p : Nat)
  | finish (p : Nat)

def Action.proc : Action → Option Nat
  | .tick _ => none
  | .loginRead p _ _ _ => some p
  | .loginVerify p => some p
  | .loginIssue p _ _ => some p
  | .refreshValidate p _ => some p
  | .refreshIssue p _ => some p
  | .record p => some p
  | .revokeOld p => some p
  | .changePassword p _ _ _ _ => some p
  | .writePassword p => some p
  | .setUserDisabled p _ _ _ => some p
  | .readSet p => some p
  | .writeRevoked p => some p
  | .clearSet p => some p
  | .finish p => some p

def World.goto (w : World) (p : Nat) (s : Proc) : World :=
  { w with procs := update w.procs p s }

def World.sign (w : World) (p : Nat) (c : Claims) (old : Option Claims) : World :=
  if c.id = "" ∨ c.subject = "" ∨ w.issued.any (·.id = c.id) then w
  else { w with issued := w.issued ++ [c] }.goto p (.signed c old)

def setUserStatus (accounts : Accounts) (userID : String) (disabled : Bool) : Accounts :=
  accounts.modify userID
    (fun a => { a with
      status := if disabled then .disabled else .active
      isActive := !disabled }) fun _ => rfl

def mayChangeStatus (tenantID : String) (a : Account) : Bool :=
  a.tenantID = tenantID ∧ a.kind = "human" ∧ a.status ≠ .invited

def updatePasswordHash (accounts : Accounts) (userID hash : String) : Accounts :=
  accounts.modify userID (fun a => { a with passwordHash := hash }) fun _ => rfl

section Step

variable (env : Env) (w : World) (p : Nat)

def loginRead (tenantID username password : String) : World :=
  match getHumanByUsername w.accounts tenantID username with
  | none => w
  | some user =>
    match checkAccount w.now user with
    | .error _ => w
    | .ok () => w.goto p (.passwordStep user password)

def loginVerify (user : Account) (password : String) : World :=
  match checkPassword env.argon2 w.accounts w.now user password with
  | (.ok (), accounts) => { w with accounts := accounts }.goto p (.authenticated user)
  | (.error _, accounts) => { w with accounts := accounts }.goto p .idle

def loginIssue (user : Account) (jti sid : String) : World :=
  match loginResult env.requireMFA w.now user ((w.accounts.get user.id).any (·.mfaEnabled))
      (loadRoleNames w.assignments user.id user.tenantID) jti sid with
  | .token c => w.sign p c none
  | .mfaRequired _ => w.goto p .idle
  | .mfaSetupRequired _ => w.goto p .idle

def refreshValidate (tok : Bytes) : World :=
  match validateToken env.verified w.redis w.now tok with
  | .error _ => w
  | .ok c => w.goto p (.validated c)

def changePassword (userID current new newHash : String) : World :=
  match w.accounts.get userID with
  | none => w
  | some user =>
    if env.argon2 current user.passwordHash = some true ∧ env.validatePassword new ∧ new ≠ current
    then w.goto p (.passwordChecked userID newHash)
    else w

def setUserDisabled (tenantID userID : String) (disabled : Bool) : World :=
  match w.accounts.get userID with
  | none => w
  | some user =>
    if mayChangeStatus tenantID user then
      { w with accounts := setUserStatus w.accounts userID disabled }.goto p
        (if disabled then .marked userID true else .idle)
    else w

def readSet (userID : String) (disable : Bool) : World :=
  match userJTIs w.redis w.now userID with
  | [] => w.goto p (.revoked userID disable)
  | jtis => w.goto p (.revoking userID jtis disable)

def afterRecord : Option Claims → Proc
  | none => .idle
  | some old => .recorded old

def step : Action → World
  | .tick d => { w with now := w.now + d }
  | .loginRead p tenantID username password =>
    match w.procs p with
    | .idle => loginRead w p tenantID username password
    | _ => w
  | .loginVerify p =>
    match w.procs p with
    | .passwordStep user password => loginVerify env w p user password
    | _ => w
  | .loginIssue p jti sid =>
    match w.procs p with
    | .authenticated user => loginIssue env w p user jti sid
    | _ => w
  | .refreshValidate p tok =>
    match w.procs p with
    | .idle => refreshValidate env w p tok
    | _ => w
  | .refreshIssue p jti =>
    match w.procs p with
    | .validated c => w.sign p (refreshedClaims w.now jti c) (some c)
    | _ => w
  | .record p =>
    match w.procs p with
    | .signed c old =>
      { w with redis := recordIssuedJTI w.redis w.now c.subject c.id }.goto p (afterRecord old)
    | _ => w
  | .revokeOld p =>
    match w.procs p with
    | .recorded old => { w with redis := revokeToken w.redis w.now old }.goto p .idle
    | _ => w
  | .changePassword p userID current new newHash =>
    match w.procs p with
    | .idle => changePassword env w p userID current new newHash
    | _ => w
  | .writePassword p =>
    match w.procs p with
    | .passwordChecked userID newHash =>
      { w with accounts := updatePasswordHash w.accounts userID newHash }.goto p
        (.marked userID false)
    | _ => w
  | .setUserDisabled p tenantID userID disabled =>
    match w.procs p with
    | .idle => setUserDisabled w p tenantID userID disabled
    | _ => w
  | .readSet p =>
    match w.procs p with
    | .marked userID disable => readSet w p userID disable
    | _ => w
  | .writeRevoked p =>
    match w.procs p with
    | .revoking userID (j :: jtis) disable =>
      { w with redis := store w.redis w.now (.revoked j) .one tokenTTL }.goto p
        (.revoking userID jtis disable)
    | _ => w
  | .clearSet p =>
    match w.procs p with
    | .revoking userID [] disable =>
      { w with redis := remove w.redis (.userJTIs userID) }.goto p (.revoked userID disable)
    | _ => w
  | .finish p =>
    match w.procs p with
    | .revoked _ _ => w.goto p .idle
    | _ => w

end Step

def SameActivity (before after : Accounts) : Prop :=
  ∀ a' ∈ after.rows, ∃ a ∈ before.rows, a.id = a'.id ∧ a.isActive = a'.isActive

theorem SameActivity.refl (accounts : Accounts) : SameActivity accounts accounts :=
  fun a ha => ⟨a, ha, rfl, rfl⟩

theorem SameActivity.trans {x y z : Accounts} (hxy : SameActivity x y)
    (hyz : SameActivity y z) : SameActivity x z := by
  intro c hc
  obtain ⟨b, hb, hid, hact⟩ := hyz c hc
  obtain ⟨a, ha, hid', hact'⟩ := hxy b hb
  exact ⟨a, ha, hid'.trans hid, hact'.trans hact⟩

theorem modify_sameActivity {accounts : Accounts} {id : String} {f : Account → Account}
    (hf : ∀ a, (f a).id = a.id) (hact : ∀ a, (f a).isActive = a.isActive) :
    SameActivity accounts (accounts.modify id f hf) := by
  intro a' ha'
  rcases Table.mem_modify_iff.mp ha' with ⟨ha, _⟩ | ⟨a, ha, _, rfl⟩
  · exact ⟨a', ha, rfl, rfl⟩
  · exact ⟨a, ha, (hf a).symm, (hact a).symm⟩

theorem recordFailure_sameActivity (accounts : Accounts) (now : Int) (id : String) :
    SameActivity accounts (recordFailure accounts now id) := by
  have hcount : SameActivity accounts (recordFailedLogin accounts id) :=
    modify_sameActivity _ fun _ => rfl
  unfold recordFailure
  split_ifs
  · exact hcount.trans (modify_sameActivity _ fun _ => rfl)
  · exact hcount

theorem resetFailedLogins_sameActivity (accounts : Accounts) (id : String) :
    SameActivity accounts (resetFailedLogins accounts id) :=
  modify_sameActivity _ fun _ => rfl

theorem checkPassword_sameActivity (argon2 : String → String → Option Bool)
    (accounts : Accounts) (now : Int) (user : Account) (password : String) :
    SameActivity accounts (checkPassword argon2 accounts now user password).2 := by
  unfold checkPassword
  split
  · exact .refl accounts
  · exact recordFailure_sameActivity accounts now user.id
  · exact resetFailedLogins_sameActivity accounts user.id

def Inactive (u : String) (accounts : Accounts) : Prop :=
  ∀ a ∈ accounts.rows, a.id = u → a.isActive = false

theorem Inactive.mono {u : String} {before after : Accounts} (h : Inactive u before)
    (hsame : SameActivity before after) : Inactive u after := by
  intro a' ha' hid
  obtain ⟨a, ha, hida, hact⟩ := hsame a' ha'
  rw [← hact]
  exact h a ha (hida.trans hid)

theorem setUserStatus_inactive (accounts : Accounts) (u : String) :
    Inactive u (setUserStatus accounts u true) := by
  intro a ha hid
  rcases Table.mem_modify_iff.mp ha with ⟨_, hne⟩ | ⟨b, _, _, rfl⟩
  · exact absurd hid hne
  · rfl

def AccountsEffect (a : Action) (before after : Accounts) : Prop :=
  SameActivity before after ∨
    ∃ p t u d, a = .setUserDisabled p t u d ∧ after = setUserStatus before u d

def Proc.issuing : Proc → Option String
  | .passwordStep user _ => some user.id
  | .authenticated user => some user.id
  | .validated c => some c.subject
  | .signed c _ => some c.subject
  | _ => none

def Proc.pass : Proc → Option (String × List String)
  | .revoking u jtis _ => some (u, jtis)
  | .revoked u _ => some (u, [])
  | _ => none

def Proc.pending : Proc → Option Claims
  | .signed c _ => some c
  | _ => none

def Proc.claims : Proc → List Claims
  | .validated c => [c]
  | .signed c old => c :: old.toList
  | .recorded old => [old]
  | _ => []

inductive Effect (env : Env) (w : World) (a : Action) (w' : World) : Prop
  | time (time : w.now ≤ w'.now) (redis : w'.redis = w.redis) (issued : w'.issued = w.issued)
      (procs : w'.procs = w.procs) (accounts : w'.accounts = w.accounts)
  | move (p : Nat) (s : Proc) (time : w'.now = w.now) (redis : w'.redis = w.redis)
      (issued : w'.issued = w.issued) (procs : w'.procs = update w.procs p s)
      (settled : (w.procs p).pending = none) (pass : s.pass = none)
      (claims : ∀ c ∈ s.claims, c ∈ (w.procs p).claims)
      (issuing : ∀ u, s.issuing = some u → (w.procs p).issuing = some u ∨
        ∃ user ∈ w.accounts.rows, user.id = u ∧ user.isActive = true)
      (accounts : AccountsEffect a w.accounts w'.accounts) (proc : a.proc = some p)
  | validated (p : Nat) (tok : Bytes) (c : Claims) (action : a = .refreshValidate p tok)
      (accepted : Accepted env.verified w.redis w.now tok c) (time : w'.now = w.now)
      (redis : w'.redis = w.redis) (issued : w'.issued = w.issued)
      (procs : w'.procs = update w.procs p (.validated c))
      (settled : (w.procs p).pending = none) (accounts : w'.accounts = w.accounts)
      (proc : a.proc = some p)
  | signed (p : Nat) (c : Claims) (old : Option Claims)
      (issuing : (w.procs p).issuing = some c.subject) (settled : (w.procs p).pending = none)
      (claims : ∀ o ∈ old, o ∈ (w.procs p).claims)
      (fresh : ∀ c' ∈ w.issued, c'.id ≠ c.id) (named : c.id ≠ "" ∧ c.subject ≠ "")
      (expires : ExpiresWithin tokenTTL w.now c) (time : w'.now = w.now)
      (redis : w'.redis = w.redis) (issued : w'.issued = w.issued ++ [c])
      (procs : w'.procs = update w.procs p (.signed c old))
      (accounts : w'.accounts = w.accounts) (proc : a.proc = some p)
  | recorded (p : Nat) (c : Claims) (s : Proc) (before : (w.procs p).pending = some c)
      (after : s.pending = none ∧ s.pass = none ∧ s.issuing = none)
      (claims : ∀ o ∈ s.claims, o ∈ (w.procs p).claims) (time : w'.now = w.now)
      (redis : w'.redis = recordIssuedJTI w.redis w.now c.subject c.id)
      (issued : w'.issued = w.issued) (procs : w'.procs = update w.procs p s)
      (accounts : w'.accounts = w.accounts) (proc : a.proc = some p)
  | revokedOld (p : Nat) (old : Claims) (before : w.procs p = .recorded old)
      (time : w'.now = w.now) (redis : w'.redis = revokeToken w.redis w.now old)
      (issued : w'.issued = w.issued) (procs : w'.procs = update w.procs p .idle)
      (accounts : w'.accounts = w.accounts) (proc : a.proc = some p)
  | read (p : Nat) (u : String) (s : Proc) (before : ∃ d, w.procs p = .marked u d)
      (after : s.pass = some (u, userJTIs w.redis w.now u))
      (quiet : s.pending = none ∧ s.claims = [] ∧ s.issuing = none) (time : w'.now = w.now)
      (redis : w'.redis = w.redis) (issued : w'.issued = w.issued)
      (procs : w'.procs = update w.procs p s) (accounts : w'.accounts = w.accounts)
      (proc : a.proc = some p)
  | wrote (p : Nat) (u j : String) (jtis : List String) (d : Bool)
      (before : w.procs p = .revoking u (j :: jtis) d) (time : w'.now = w.now)
      (redis : w'.redis = store w.redis w.now (.revoked j) .one tokenTTL)
      (issued : w'.issued = w.issued)
      (procs : w'.procs = update w.procs p (.revoking u jtis d))
      (accounts : w'.accounts = w.accounts) (proc : a.proc = some p)
  | cleared (p : Nat) (u : String) (d : Bool) (before : w.procs p = .revoking u [] d)
      (time : w'.now = w.now) (redis : w'.redis = remove w.redis (.userJTIs u))
      (issued : w'.issued = w.issued)
      (procs : w'.procs = update w.procs p (.revoked u d))
      (accounts : w'.accounts = w.accounts) (proc : a.proc = some p)

section Effects

variable {env : Env} {w : World} {a : Action} {p : Nat}

theorem Effect.same : Effect env w a w := .time le_rfl rfl rfl rfl rfl

variable (ha : a.proc = some p)

include ha

theorem goto_effect {s : Proc} {accounts : Accounts} (hsettled : (w.procs p).pending = none)
    (hpass : s.pass = none) (hclaims : s.claims = []) (hissuing : s.issuing = none)
    (haccounts : AccountsEffect a w.accounts accounts) :
    Effect env w a ({ w with accounts := accounts }.goto p s) :=
  .move p s rfl rfl rfl rfl hsettled hpass (by simp [hclaims]) (by simp [hissuing]) haccounts ha

theorem sign_effect {c : Claims} {old : Option Claims}
    (hissuing : (w.procs p).issuing = some c.subject) (hsettled : (w.procs p).pending = none)
    (hclaims : ∀ o ∈ old, o ∈ (w.procs p).claims) (hexp : ExpiresWithin tokenTTL w.now c) :
    Effect env w a (w.sign p c old) := by
  unfold World.sign
  split_ifs with hfresh
  · exact .same
  · simp only [not_or, List.any_eq_true, not_exists, not_and, decide_eq_true_eq] at hfresh
    exact .signed p c old hissuing hsettled hclaims hfresh.2.2 ⟨hfresh.1, hfresh.2.1⟩ hexp
      rfl rfl rfl rfl rfl ha

theorem loginRead_effect {t u password : String} (hp : w.procs p = .idle) :
    Effect env w a (loginRead w p t u password) := by
  unfold loginRead
  split
  · exact .same
  · rename_i user hfind
    split
    · exact .same
    · rename_i hcheck
      refine .move p (.passwordStep user password) rfl rfl rfl rfl (by rw [hp]; rfl) rfl
        (by simp [Proc.claims]) ?_ (Or.inl (.refl _)) ha
      rintro u ⟨⟩
      exact Or.inr ⟨user, mem_of_getHumanByUsername hfind, rfl, (checkAccount_ok_iff.mp hcheck).1⟩

theorem loginVerify_effect {user : Account} {password : String}
    (hp : w.procs p = .passwordStep user password) :
    Effect env w a (loginVerify env w p user password) := by
  have hsame := checkPassword_sameActivity env.argon2 w.accounts w.now user password
  unfold loginVerify
  split
  · rename_i heq
    rw [heq] at hsame
    refine .move p (.authenticated user) rfl rfl rfl rfl (by rw [hp]; rfl) rfl
      (by simp [Proc.claims]) ?_ (Or.inl hsame) ha
    rintro u ⟨⟩
    exact Or.inl (by rw [hp]; rfl)
  · rename_i heq
    rw [heq] at hsame
    exact goto_effect ha (by rw [hp]; rfl) rfl rfl rfl (Or.inl hsame)

theorem loginIssue_effect {user : Account} {jti sid : String}
    (hp : w.procs p = .authenticated user) : Effect env w a (loginIssue env w p user jti sid) := by
  have hidle : Effect env w a (w.goto p .idle) :=
    goto_effect ha (by rw [hp]; rfl) rfl rfl rfl (Or.inl (.refl _))
  unfold loginIssue
  split
  · rename_i c hresult
    have hc : c = passwordToken w.now user
        (loadRoleNames w.assignments user.id user.tenantID) jti sid := by
      unfold loginResult at hresult
      split_ifs at hresult
      cases hresult
      rfl
    subst hc
    exact sign_effect ha (by rw [hp]; rfl) (by rw [hp]; rfl) (by simp) (issueToken_expires ..)
  · exact hidle
  · exact hidle

omit ha in
theorem refreshValidate_effect {tok : Bytes} (hp : w.procs p = .idle) :
    Effect env w (.refreshValidate p tok) (refreshValidate env w p tok) := by
  unfold refreshValidate
  cases hvalid : validateToken env.verified w.redis w.now tok with
  | error e => exact .same
  | ok c =>
    exact .validated p tok c rfl (validateToken_ok_iff.mp hvalid) rfl rfl rfl rfl
      (by rw [hp]; rfl) rfl rfl

theorem changePassword_effect {u cur new hash : String} (hp : w.procs p = .idle) :
    Effect env w a (changePassword env w p u cur new hash) := by
  unfold changePassword
  split
  · exact .same
  · split_ifs
    · exact goto_effect ha (by rw [hp]; rfl) rfl rfl rfl (Or.inl (.refl _))
    · exact .same

omit ha in
theorem setUserDisabled_effect {t u : String} {disabled : Bool} (hp : w.procs p = .idle) :
    Effect env w (.setUserDisabled p t u disabled) (setUserDisabled w p t u disabled) := by
  unfold setUserDisabled
  split
  · exact .same
  · split
    · have haccounts : AccountsEffect (.setUserDisabled p t u disabled) w.accounts
          (setUserStatus w.accounts u disabled) := Or.inr ⟨p, t, u, disabled, rfl, rfl⟩
      cases disabled with
      | true | false => exact goto_effect rfl (by rw [hp]; rfl) rfl rfl rfl haccounts
    · exact .same

theorem readSet_effect {u : String} {d : Bool} (hp : w.procs p = .marked u d) :
    Effect env w a (readSet w p u d) := by
  unfold readSet
  split
  · rename_i hempty
    exact .read p u (.revoked u d) ⟨d, hp⟩ (by rw [hempty]; rfl) ⟨rfl, rfl, rfl⟩ rfl rfl rfl
      rfl rfl ha
  · exact .read p u (.revoking u _ d) ⟨d, hp⟩ rfl ⟨rfl, rfl, rfl⟩ rfl rfl rfl rfl rfl ha

theorem record_effect {c : Claims} {old : Option Claims} (hp : w.procs p = .signed c old) :
    Effect env w a ({ w with redis := recordIssuedJTI w.redis w.now c.subject c.id }.goto p
        (afterRecord old)) := by
  cases old with
  | none =>
    exact .recorded p c .idle (by rw [hp]; rfl) ⟨rfl, rfl, rfl⟩ (by simp [Proc.claims])
      rfl rfl rfl rfl rfl ha
  | some o =>
    exact .recorded p c (.recorded o) (by rw [hp]; rfl) ⟨rfl, rfl, rfl⟩
      (by rw [hp]; simp [Proc.claims]) rfl rfl rfl rfl rfl ha

omit ha

theorem step_effect (env : Env) (w : World) (a : Action) : Effect env w a (step env w a) := by
  cases a <;> dsimp only [step]
  case tick d =>
    exact .time (Int.le_add_of_nonneg_right (Int.natCast_nonneg d)) rfl rfl rfl rfl
  -- a step that the process is not ready for is not taken
  all_goals split <;> try exact .same
  next hp => exact loginRead_effect rfl hp
  next hp => exact loginVerify_effect rfl hp
  next hp => exact loginIssue_effect rfl hp
  next hp => exact refreshValidate_effect hp
  next hp =>
    exact sign_effect rfl (by rw [hp]; rfl) (by rw [hp]; rfl) (by rw [hp]; simp [Proc.claims])
      (issueToken_expires ..)
  next hp => exact record_effect rfl hp
  next hp => exact .revokedOld _ _ hp rfl rfl rfl rfl rfl rfl
  next hp => exact changePassword_effect rfl hp
  next hp =>
    exact goto_effect rfl (by rw [hp]; rfl) rfl rfl rfl
      (Or.inl (modify_sameActivity _ fun _ => rfl))
  next hp => exact setUserDisabled_effect hp
  next hp => exact readSet_effect rfl hp
  next hp => exact .wrote _ _ _ _ _ hp rfl rfl rfl rfl rfl rfl
  next hp => exact .cleared _ _ _ hp rfl rfl rfl rfl rfl rfl
  next hp =>
    exact goto_effect rfl (by rw [hp]; rfl) rfl rfl rfl (Or.inl (.refl _))

end Effects

end OciJanus.Auth.DisableUser
