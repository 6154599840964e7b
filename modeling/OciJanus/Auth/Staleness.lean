import OciJanus.Auth.Login

/-!
# How long a token keeps what its subject has lost

`RefreshToken` copies role names and the global-admin flag from token to token. The operations are
atomic.
-/

namespace OciJanus.Auth.Staleness

open Auth.Token Auth.Roles List
open Auth.Delegation (GrantRoleRequest)
open Verified Sha256 Run ExpiringStore KeyedTable Auth.Login

structure World where
  accounts : Accounts
  assignments : List RoleAssignment
  redis : Redis
  now : Int
  issued : List Claims

structure Env where
  argon2 : String → String → Option Bool
  requireMFA : String → Bool
  verified : Bytes → Option Claims

section Operations

variable (env : Env) (w : World)

def World.sign (c : Claims) : World :=
  { w with
    redis := recordIssuedJTI w.redis w.now c.subject c.id
    issued := w.issued ++ [c] }

def World.finishLogin (r : LoginResult) : World :=
  match r with
  | .token c => w.sign c
  | .mfaRequired _ => w
  | .mfaSetupRequired _ => w

def login (tenantID username password jti sid : String) : World :=
  match authenticateUser env.argon2 w.accounts w.now tenantID username password with
  | (.error _, accounts) => { w with accounts := accounts }
  | (.ok user, accounts) =>
    { w with accounts := accounts }.finishLogin
      (loginResult env.requireMFA w.now user user.mfaEnabled
        (loadRoleNames w.assignments user.id user.tenantID) jti sid)

def refresh (tok : Bytes) (jti : String) : World :=
  match refreshToken env.verified w.redis w.now jti tok with
  | .ok p => { w with redis := p.2, issued := w.issued ++ [p.1] }
  | .error _ => w

def World.tables : Delegation.State := ⟨w.accounts.rows.map (·.toUser), w.assignments⟩

def World.assign (outcome : Except Delegation.Code Delegation.State) : World :=
  match outcome with
  | .ok s => { w with assignments := s.assignments }
  | .error _ => w

def setGlobalAdmin (userID : String) (granted : Bool) : World :=
  { w with
    accounts := w.accounts.modify userID (fun a => { a with isGlobalAdmin := granted })
      fun _ => rfl }

end Operations

inductive Action where
  | tick (d : Nat)
  | login (tenantID username password jti sid : String)
  | refreshToken (tok : Bytes) (jti : String)
  | grantRole (req : GrantRoleRequest) (id : String)
  | revokeRole (id tenantID expectedType expectedValue : String)
  | setGlobalAdmin (userID : String) (granted : Bool)

def step (env : Env) (w : World) : Action → World
  | .tick d => { w with now := w.now + d }
  | .login tenantID username password jti sid => login env w tenantID username password jti sid
  | .refreshToken tok jti => refresh env w tok jti
  | .grantRole req id => w.assign (Delegation.grantRole w.tables req id)
  | .revokeRole id tenantID et ev => w.assign (Delegation.revokeRole w.tables id tenantID et ev)
  | .setGlobalAdmin userID granted => setGlobalAdmin w userID granted

def HoldsRole (userID tenantID role : String) (w : World) : Prop :=
  ∃ a ∈ w.assignments, a.userID = userID ∧ a.tenantID = tenantID ∧ a.roleName = role

def HoldsFlag (userID : String) (w : World) : Prop :=
  ∃ a ∈ w.accounts.rows, a.id = userID ∧ a.isGlobalAdmin = true

structure Backed (w : World) (c : Claims) : Prop where
  roles : ∀ r ∈ c.roles, HoldsRole c.subject c.tenantID r w
  flag : c.isGlobalAdmin = true → HoldsFlag c.subject w

def RefreshBacked (env : Env) (w : World) : Action → Prop
  | .refreshToken tok _ =>
    ∀ c, validateToken env.verified w.redis w.now tok = .ok c → Backed w c
  | _ => True

def Unforged (env : Env) (w : World) : Action → Prop
  | .refreshToken tok _ => ∀ c, env.verified tok = some c → c.typ = "" → c ∈ w.issued
  | _ => True

section Steps

variable {env : Env} {w : World}

variable {c : Claims}

theorem mem_login_issued {t u p jti sid : String} (hc : c ∈ (login env w t u p jti sid).issued) :
    c ∈ w.issued ∨ Backed w c ∧ ExpiresWithin tokenTTL w.now c := by
  unfold login at hc
  split at hc
  · exact Or.inl hc
  · rename_i user accounts hauth
    obtain ⟨hget, _⟩ := authenticateUser_ok hauth
    unfold loginResult at hc
    split_ifs at hc
    · exact Or.inl hc
    · exact Or.inl hc
    · rcases mem_append.mp hc with hold | hnew
      · exact Or.inl hold
      · cases mem_singleton.mp hnew
        refine Or.inr ⟨⟨fun r hr => ?_, fun hflag => ?_⟩, issueToken_expires ..⟩
        · exact mem_loadRoleNames.mp hr
        · exact ⟨user, mem_of_getHumanByUsername hget, rfl, hflag⟩

theorem mem_refresh_issued {tok : Bytes} {jti : String}
    (hG : RefreshBacked env w (.refreshToken tok jti)) (hc : c ∈ (refresh env w tok jti).issued) :
    c ∈ w.issued ∨ Backed w c ∧ ExpiresWithin tokenTTL w.now c := by
  unfold refresh at hc
  cases hr : refreshToken env.verified w.redis w.now jti tok with
  | error e => exact Or.inl (by simpa [hr] using hc)
  | ok p =>
    simp only [hr] at hc
    rcases mem_append.mp hc with hold | hnew
    · exact Or.inl hold
    · obtain ⟨c₀, hacc, hclaims, _⟩ := refreshToken_ok hr
      have hb := hG c₀ (validateToken_ok_iff.mpr hacc)
      cases mem_singleton.mp hnew
      rw [hclaims]
      exact Or.inr ⟨⟨hb.roles, hb.flag⟩, issueToken_expires ..⟩

theorem assign_issued (outcome : Except Delegation.Code Delegation.State) :
    (w.assign outcome).issued = w.issued ∧ (w.assign outcome).now = w.now := by
  cases outcome <;> exact ⟨rfl, rfl⟩

theorem step_issued (a : Action) (hG : RefreshBacked env w a) (hc : c ∈ (step env w a).issued) :
    c ∈ w.issued ∨ Backed w c ∧ ExpiresWithin tokenTTL w.now c := by
  cases a with
  | tick | setGlobalAdmin => exact Or.inl hc
  | login t u p jti sid => exact mem_login_issued hc
  | refreshToken tok jti => exact mem_refresh_issued hG hc
  | grantRole | revokeRole => exact Or.inl ((assign_issued _).1 ▸ hc)

theorem step_now (a : Action) : w.now ≤ (step env w a).now := by
  cases a with
  | tick d => exact Int.le_add_of_nonneg_right (Int.natCast_nonneg d)
  | login t u p jti sid =>
    show w.now ≤ (login env w t u p jti sid).now
    unfold login
    split
    · exact le_rfl
    · unfold loginResult
      split_ifs <;> exact le_rfl
  | refreshToken tok jti =>
    show w.now ≤ (refresh env w tok jti).now
    unfold refresh
    split <;> exact le_rfl
  | grantRole | revokeRole => exact (assign_issued _).2.ge
  | setGlobalAdmin u granted => exact le_rfl

theorem run_now (acts : List Action) : w.now ≤ (run (step env) w acts).now := by
  induction acts generalizing w with
  | nil => exact le_rfl
  | cons a acts ih => exact (step_now a).trans ih

end Steps

def Recently (env : Env) (w : World) (acts : List Action) (P : World → Prop) : Prop :=
  ∃ soon rest, acts = soon ++ rest ∧
    (run (step env) w acts).now - tokenTTL ≤ (run (step env) w soon).now ∧
    (run (step env) w soon).now ≤ (run (step env) w acts).now ∧ P (run (step env) w soon)

def RolesAgeOut (env : Env) (w : World) (acts : List Action) : Prop :=
  let w' := run (step env) w acts
  ∀ c ∈ w'.issued, ∀ tok, validateToken env.verified w'.redis w'.now tok = .ok c →
    ∀ r ∈ c.roles, Recently env w acts (HoldsRole c.subject c.tenantID r)

def FlagAgesOut (env : Env) (w : World) (acts : List Action) : Prop :=
  let w' := run (step env) w acts
  ∀ c ∈ w'.issued, ∀ tok, validateToken env.verified w'.redis w'.now tok = .ok c →
    c.isGlobalAdmin = true → Recently env w acts (HoldsFlag c.subject)

def start (accounts : Accounts) (assignments : List RoleAssignment) (now : Int) : World :=
  ⟨accounts, assignments, Store.empty, now, []⟩

theorem accepted_backed {env : Env} {w : World} {acts : List Action}
    (hG : Guarded (step env) (RefreshBacked env) w acts) (hw : w.issued = []) {c : Claims}
    (hc : c ∈ (run (step env) w acts).issued) {tok : Bytes}
    (hvalid : validateToken env.verified (run (step env) w acts).redis
      (run (step env) w acts).now tok = .ok c) : Recently env w acts fun w' => Backed w' c := by
  rcases run_origin (P := fun w : World => c ∈ w.issued)
    (Q := fun w _ => Backed w c ∧ ExpiresWithin tokenTTL w.now c)
    (fun w a hG hc => step_issued a hG hc) hG hc with hnone | hsome
  · rw [hw] at hnone
    cases hnone
  · obtain ⟨soon, a, rest, hacts, hb, e, he, hle⟩ := hsome
    have hlt := (validateToken_ok_iff.mp hvalid).now_lt he
    have hle' : e ≤ (run (step env) w soon).now + tokenTTL := hle
    refine ⟨soon, a :: rest, hacts, by omega, ?_, hb⟩
    rw [hacts, run_append]
    exact run_now _

theorem Recently.imp {env : Env} {w : World} {acts : List Action} {P Q : World → Prop}
    (h : Recently env w acts P) (hPQ : ∀ w, P w → Q w) : Recently env w acts Q := by
  obtain ⟨soon, rest, hacts, hge, hle, hP⟩ := h
  exact ⟨soon, rest, hacts, hge, hle, hPQ _ hP⟩

/-- **Revoked privileges age out** within one token lifetime. -/
theorem privileges_age_out (env : Env) (accounts : Accounts) (assignments : List RoleAssignment)
    (now : Int) (acts : List Action)
    (hG : Guarded (step env) (RefreshBacked env) (start accounts assignments now) acts) :
    RolesAgeOut env (start accounts assignments now) acts ∧
      FlagAgesOut env (start accounts assignments now) acts := by
  constructor
  · intro c hc tok hvalid r hr
    exact (accepted_backed hG rfl hc hvalid).imp fun _ hb => hb.roles r hr
  · intro c hc tok hvalid hflag
    exact (accepted_backed hG rfl hc hvalid).imp fun _ hb => hb.flag hflag

def ann : Account where
  id := "u"
  tenantID := "t"
  username := "ann"
  email := "ann@a.b"
  kind := "human"
  isGlobalAdmin := true
  passwordHash := "h"
  status := .active
  isActive := true
  failedLogins := 0
  lockedUntil := none
  mfaEnabled := false

def annOwner : RoleAssignment := ⟨"x", "t", "u", "owner", ⟨.org, "o"⟩, "root"⟩

def firstClaims : Claims := passwordToken 0 ann ["owner"] "j1" "s"

def secondClaims : Claims := refreshedClaims (4 * minute) "j2" firstClaims

def annEnv : Env where
  argon2 := fun _ _ => some true
  requireMFA := fun _ => false
  verified := fun tok =>
    if tok = [1] then some firstClaims else if tok = [2] then some secondClaims else none

def annStart : World := start ⟨[ann], by decide⟩ [annOwner] 0

def fourMinutes : Nat := 240000000000

def refreshThenLose : List Action :=
  [.login "t" "ann" "pw" "j1" "s", .tick fourMinutes, .refreshToken [1] "j2",
    .revokeRole "x" "t" "" "", .setGlobalAdmin "u" false]

theorem refreshed_in_time :
    RolesAgeOut annEnv annStart refreshThenLose ∧ FlagAgesOut annEnv annStart refreshThenLose := by
  refine privileges_age_out annEnv ⟨[ann], by decide⟩ [annOwner] 0 refreshThenLose ?_
  simp only [refreshThenLose, Guarded, RefreshBacked, true_and, and_true]
  intro c hvalid
  have hc := (validateToken_ok_iff.mp hvalid).signed
  cases hc
  exact ⟨by unfold HoldsRole; decide +kernel, fun _ => by unfold HoldsFlag; decide +kernel⟩

def loseThenRefresh : List Action :=
  [.login "t" "ann" "pw" "j1" "s", .revokeRole "x" "t" "" "", .setGlobalAdmin "u" false,
    .tick fourMinutes, .refreshToken [1] "j2", .tick fourMinutes]

theorem loseThenRefresh_unforged :
    Guarded (step annEnv) (Unforged annEnv) annStart loseThenRefresh := by
  simp only [loseThenRefresh, Guarded, Unforged, true_and, and_true]
  intro c hc _
  cases hc
  exact mem_cons_self

theorem secondClaims_accepted :
    secondClaims ∈ (run (step annEnv) annStart loseThenRefresh).issued ∧
      validateToken annEnv.verified (run (step annEnv) annStart loseThenRefresh).redis
        (run (step annEnv) annStart loseThenRefresh).now [2] = .ok secondClaims := by
  constructor
  · decide +kernel
  · rw [validateToken_ok_iff]
    exact ⟨rfl, by decide +kernel, rfl, by decide +kernel, by decide +kernel, by decide +kernel⟩

theorem not_recently {P : World → Prop} (h : ∀ soon ∈ loseThenRefresh.inits,
      3 * minute ≤ (run (step annEnv) annStart soon).now → ¬ P (run (step annEnv) annStart soon)) :
    ¬ Recently annEnv annStart loseThenRefresh P := by
  rintro ⟨soon, rest, hacts, hge, _, hP⟩
  have hnow : (run (step annEnv) annStart loseThenRefresh).now - tokenTTL = 3 * minute := by
    decide +kernel
  exact h soon ((mem_inits _ _).mpr ⟨rest, hacts.symm⟩) (hnow ▸ hge) hP

theorem revoked_role_accepted :
    (¬ ∀ env accounts assignments now acts,
        Guarded (step env) (Unforged env) (start accounts assignments now) acts →
          RolesAgeOut env (start accounts assignments now) acts) ∧
      ¬ ∀ env accounts assignments now acts,
        Guarded (step env) (Unforged env) (start accounts assignments now) acts →
          FlagAgesOut env (start accounts assignments now) acts := by
  obtain ⟨hissued, hvalid⟩ := secondClaims_accepted
  constructor
  · intro h
    have hroles := h annEnv ⟨[ann], by decide⟩ [annOwner] 0 loseThenRefresh
      loseThenRefresh_unforged secondClaims hissued [2] hvalid "owner" mem_cons_self
    refine not_recently ?_ hroles
    unfold HoldsRole
    decide +kernel
  · intro h
    have hflag := h annEnv ⟨[ann], by decide⟩ [annOwner] 0 loseThenRefresh
      loseThenRefresh_unforged secondClaims hissued [2] hvalid rfl
    refine not_recently ?_ hflag
    unfold HoldsFlag
    decide +kernel

end OciJanus.Auth.Staleness
