import OciJanus.Auth.Delegation
import OciJanus.Verified.KeyedTable

/-!
# Logging in

`argon2` stands for `argon2.Verify`, with `none` for a malformed hash; `requireMFA` for the
tenant's token policy.
-/

namespace OciJanus.Auth.Login

open Auth.Token Auth.Roles Auth.Delegation Verified.KeyedTable

inductive Status where
  | active
  | disabled
  | invited
  deriving DecidableEq

structure Account extends User where
  passwordHash : String
  status : Status
  isActive : Bool
  failedLogins : Nat
  lockedUntil : Option Int
  mfaEnabled : Bool
  deriving DecidableEq

abbrev Accounts := Table Account String (fun a => a.id)

def lockoutDuration : Int := 15 * minute

def maxFailedLogins : Nat := 5

section Rows

variable (accounts : Accounts)

def getHumanByUsername (tenantID username : String) : Option Account :=
  accounts.rows.find? fun a =>
    a.tenantID = tenantID ∧ a.username = username ∧ a.kind = "human"

def recordFailedLogin (id : String) : Accounts :=
  accounts.modify id (fun a => { a with failedLogins := a.failedLogins + 1 }) fun _ => rfl

def lockUntil (id : String) (deadline : Int) : Accounts :=
  accounts.modify id (fun a => { a with lockedUntil := some (timestamptz deadline) }) fun _ => rfl

def resetFailedLogins (id : String) : Accounts :=
  accounts.modify id
    (fun a => { a with
      failedLogins := 0
      lockedUntil := none }) fun _ => rfl

def failedCount (id : String) : Nat := ((accounts.get id).map (·.failedLogins)).getD 0

def recordFailure (now : Int) (id : String) : Accounts :=
  if maxFailedLogins ≤ failedCount (recordFailedLogin accounts id) id then
    lockUntil (recordFailedLogin accounts id) id (now + lockoutDuration)
  else recordFailedLogin accounts id

end Rows

inductive LoginError where
  | invalidCredentials
  | accountDisabled
  | accountLocked
  | notFound
  | mfaNotEnrolled
  | internal

def Account.locked (now : Int) (a : Account) : Bool := a.lockedUntil.any fun d => now < d

def checkAccount (now : Int) (a : Account) : Except LoginError Unit :=
  if !a.isActive then .error .accountDisabled
  else if a.locked now then .error .accountLocked
  else .ok ()

section Authenticate

variable (argon2 : String → String → Option Bool)

def checkPassword (accounts : Accounts) (now : Int) (user : Account) (password : String) :
    Except LoginError Unit × Accounts :=
  match argon2 password user.passwordHash with
  | none => (.error .internal, accounts)
  | some false => (.error .invalidCredentials, recordFailure accounts now user.id)
  | some true => (.ok (), resetFailedLogins accounts user.id)

def authenticateUser (accounts : Accounts) (now : Int) (tenantID username password : String) :
    Except LoginError Account × Accounts :=
  match getHumanByUsername accounts tenantID username with
  | none => (.error .invalidCredentials, accounts)
  | some user =>
    match checkAccount now user with
    | .error e => (.error e, accounts)
    | .ok () =>
      match checkPassword argon2 accounts now user password with
      | (.error e, accounts') => (.error e, accounts')
      | (.ok (), accounts') => (.ok user, accounts')

end Authenticate

def loadRoleNames (assignments : List RoleAssignment) (userID tenantID : String) : List String :=
  ((assignments.filter fun a => a.userID = userID ∧ a.tenantID = tenantID).map
    (·.roleName)).eraseDups

def mfaChallengeTTL : Int := 5 * minute

def mfaSetupTTL : Int := 15 * minute

def tokenTypeMFAChallenge : String := "mfa_challenge"

def tokenTypeMFASetup : String := "mfa_setup"

def typedToken (now : Int) (jti userID tenantID typ audience : String) (ttl : Int) : Claims where
  issuer := "registry-auth"
  subject := userID
  audience := [audience]
  expiresAt := some (newNumericDate (now + ttl))
  notBefore := none
  issuedAt := some (newNumericDate now)
  id := jti
  tenantID := tenantID
  access := []
  roles := []
  isGlobalAdmin := false
  principalKind := ""
  source := ""
  trustID := ""
  typ := typ
  amr := ["pwd"]
  sid := ""

inductive LoginResult where
  | token (c : Claims)
  | mfaRequired (challenge : Claims)
  | mfaSetupRequired (setup : Claims)

def LoginResult.claims : LoginResult → Claims
  | .token c => c
  | .mfaRequired challenge => challenge
  | .mfaSetupRequired setup => setup

def passwordToken (now : Int) (user : Account) (roles : List String) (jti sid : String) : Claims :=
  issueToken now jti user.id user.tenantID [] roles user.isGlobalAdmin user.kind ["pwd"] sid

def loginResult (requireMFA : String → Bool) (now : Int) (user : Account) (mfaEnabled : Bool)
    (roles : List String) (jti sid : String) : LoginResult :=
  if mfaEnabled then
    .mfaRequired (typedToken now jti user.id user.tenantID tokenTypeMFAChallenge
      "registry-auth-mfa" mfaChallengeTTL)
  else if requireMFA user.tenantID ∧ user.kind = "human" then
    .mfaSetupRequired (typedToken now jti user.id user.tenantID tokenTypeMFASetup
      "registry-auth-mfa-setup" mfaSetupTTL)
  else .token (passwordToken now user roles jti sid)

section Rows

variable {accounts : Accounts} {id : String} {a : Account}

theorem mem_of_getHumanByUsername {t u : String}
    (h : getHumanByUsername accounts t u = some a) : a ∈ accounts.rows :=
  List.mem_of_find?_eq_some h

theorem checkAccount_ok_iff {now : Int} :
    checkAccount now a = .ok () ↔ a.isActive = true ∧ a.locked now = false := by
  unfold checkAccount
  cases a.isActive <;> cases a.locked now <;> simp

def afterFailure (now : Int) (a : Account) : Account :=
  { a with
    failedLogins := a.failedLogins + 1
    lockedUntil :=
      if maxFailedLogins ≤ a.failedLogins + 1 then some (timestamptz (now + lockoutDuration))
      else a.lockedUntil }

theorem get_recordFailure_self (now : Int) :
    (recordFailure accounts now id).get id = (accounts.get id).map (afterFailure now) := by
  have hget : (recordFailedLogin accounts id).get id =
      (accounts.get id).map fun a => { a with failedLogins := a.failedLogins + 1 } :=
    Table.get_modify_self
  unfold recordFailure failedCount lockUntil
  cases h : accounts.get id with
  | none =>
    rw [h] at hget
    split_ifs
    · rw [Table.get_modify_self, hget]
      rfl
    · rw [hget]
      rfl
  | some a =>
    rw [h] at hget
    rw [hget]
    show (if maxFailedLogins ≤ a.failedLogins + 1 then _ else _ : Accounts).get id = _
    unfold afterFailure
    split_ifs with hfull
    · rw [Table.get_modify_self, hget]
      simp [hfull]
    · rw [hget]
      simp [hfull]

theorem get_recordFailure_ne {id' : String} (hne : id' ≠ id) (now : Int) :
    (recordFailure accounts now id).get id' = accounts.get id' := by
  have hget : (recordFailedLogin accounts id).get id' = accounts.get id' :=
    Table.get_modify_ne hne
  unfold recordFailure lockUntil
  split_ifs
  · rw [Table.get_modify_ne hne, hget]
  · exact hget

theorem get_resetFailedLogins_self :
    (resetFailedLogins accounts id).get id =
      (accounts.get id).map fun a => { a with failedLogins := 0, lockedUntil := none } :=
  Table.get_modify_self

theorem get_resetFailedLogins_ne {id' : String} (hne : id' ≠ id) :
    (resetFailedLogins accounts id).get id' = accounts.get id' :=
  Table.get_modify_ne hne

theorem authenticateUser_cases (argon2 : String → String → Option Bool) (accounts : Accounts)
    (now : Int) (t u password : String) :
    (∃ e, authenticateUser argon2 accounts now t u password = (.error e, accounts)) ∨
      ∃ a, getHumanByUsername accounts t u = some a ∧ checkAccount now a = .ok () ∧
        (authenticateUser argon2 accounts now t u password =
            (.error .invalidCredentials, recordFailure accounts now a.id) ∨
          argon2 password a.passwordHash = some true ∧
            authenticateUser argon2 accounts now t u password =
              (.ok a, resetFailedLogins accounts a.id)) := by
  unfold authenticateUser
  cases hget : getHumanByUsername accounts t u with
  | none => exact Or.inl ⟨_, rfl⟩
  | some a =>
    cases hcheck : checkAccount now a with
    | error e => exact Or.inl ⟨e, by simp [hcheck]⟩
    | ok _ =>
      unfold checkPassword
      cases hpw : argon2 password a.passwordHash with
      | none => exact Or.inl ⟨.internal, by simp [hcheck, hpw]⟩
      | some right =>
        refine Or.inr ⟨a, rfl, hcheck, ?_⟩
        cases right with
        | false => exact Or.inl (by simp [hcheck, hpw])
        | true => exact Or.inr ⟨hpw, by simp [hcheck, hpw]⟩

theorem authenticateUser_ok {argon2 : String → String → Option Bool} {now : Int}
    {t u password : String} {accounts' : Accounts}
    (h : authenticateUser argon2 accounts now t u password = (.ok a, accounts')) :
    getHumanByUsername accounts t u = some a ∧ checkAccount now a = .ok () ∧
      argon2 password a.passwordHash = some true ∧
      accounts' = resetFailedLogins accounts a.id := by
  rcases authenticateUser_cases argon2 accounts now t u password with
    ⟨e, he⟩ | ⟨a', hget, hcheck, hwrong | ⟨hpw, hright⟩⟩
  · rw [he] at h
    cases h
  · rw [hwrong] at h
    cases h
  · rw [hright] at h
    cases h
    exact ⟨hget, hcheck, hpw, rfl⟩

theorem mem_loadRoleNames {assignments : List RoleAssignment} {u t r : String} :
    r ∈ loadRoleNames assignments u t ↔
      ∃ x ∈ assignments, x.userID = u ∧ x.tenantID = t ∧ x.roleName = r := by
  simp only [loadRoleNames, List.mem_eraseDups, List.mem_map, List.mem_filter, decide_eq_true_eq]
  constructor
  · rintro ⟨x, ⟨hx, hu, ht⟩, hr⟩
    exact ⟨x, hx, hu, ht, hr⟩
  · rintro ⟨x, hx, hu, ht, hr⟩
    exact ⟨x, ⟨hx, hu, ht⟩, hr⟩

end Rows

end OciJanus.Auth.Login
