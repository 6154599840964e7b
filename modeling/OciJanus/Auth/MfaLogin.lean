import OciJanus.Auth.Login
import OciJanus.Verified.Lockout

/-!
# The second factor at login

The calls are atomic; `validCode` stands for what `ConsumeMFACode` accepts.
-/

namespace OciJanus.Auth.MfaLogin

open Verified Sha256 Run ExpiringStore KeyedTable Lockout Auth.Token Auth.Roles Auth.Login

/-- `checks` lists whose code was compared, and when. -/
structure World where
  accounts : Accounts
  assignments : List RoleAssignment
  attempts : Store String Nat
  now : Int
  issued : List Claims
  checks : List (String × Int)

structure Env where
  argon2 : String → String → Option Bool
  requireMFA : String → Bool
  verified : Bytes → Option Claims
  validCode : String → Int → String → Bool

def maxMFAChallengeAttempts : Nat := 5

def incr (s : Store String Nat) (now : Int) (jti : String) : Nat × Store String Nat :=
  match s.entry jti with
  | some e =>
    if now < e.deadline then (e.value + 1, s.set now jti (e.value + 1) (e.deadline - now))
    else (1, s.set now jti 1 mfaChallengeTTL)
  | none => (1, s.set now jti 1 mfaChallengeTTL)

def recordMFAChallengeAttempt (s : Store String Nat) (now : Int) (jti : String) :
    Bool × Store String Nat :=
  ((incr s now jti).1 ≤ maxMFAChallengeAttempts, (incr s now jti).2)

def validateMFAToken (verified : Bytes → Option Claims) (now : Int) (tok : Bytes)
    (wantTyp : String) : Option Claims :=
  (parseAndVerify verified now tok).filter fun c => c.typ = wantTyp

def mfaCompletedToken (now : Int) (user : Account) (tenantID : String) (roles : List String)
    (jti sid : String) : Claims :=
  issueToken now jti user.id tenantID [] roles user.isGlobalAdmin "human" ["pwd", "otp"] sid

section Calls

variable (env : Env) (w : World)

def resultOf (user : Account) (jti sid : String) : LoginResult :=
  loginResult env.requireMFA w.now user user.mfaEnabled
    (loadRoleNames w.assignments user.id user.tenantID) jti sid

def login (tenantID username password jti sid : String) : Except LoginError LoginResult × World :=
  match authenticateUser env.argon2 w.accounts w.now tenantID username password with
  | (.error e, accounts) => (.error e, { w with accounts := accounts })
  | (.ok user, accounts) =>
    (.ok (resultOf env w user jti sid),
      { w with
        accounts := accounts
        issued := w.issued ++ [(resultOf env w user jti sid).claims] })

def checkCode (user : Account) (tenantID code jti sid : String) :
    Except LoginError Claims × World :=
  if !user.mfaEnabled then (.error .mfaNotEnrolled, w)
  else if env.validCode user.id w.now code then
    (.ok (mfaCompletedToken w.now user tenantID
        (loadRoleNames w.assignments user.id tenantID) jti sid),
      { w with
        accounts := resetFailedLogins w.accounts user.id
        issued := w.issued ++ [mfaCompletedToken w.now user tenantID
          (loadRoleNames w.assignments user.id tenantID) jti sid]
        checks := w.checks ++ [(user.id, w.now)] })
  else
    (.error .invalidCredentials,
      { w with
        accounts := recordFailure w.accounts w.now user.id
        checks := w.checks ++ [(user.id, w.now)] })

def verifyLoginMFA (tok : Bytes) (code jti sid : String) : Except LoginError Claims × World :=
  match validateMFAToken env.verified w.now tok tokenTypeMFAChallenge with
  | none => (.error .invalidCredentials, w)
  | some c =>
    match w.accounts.get c.subject with
    | none => (.error .notFound, w)
    | some user =>
      if user.locked w.now then (.error .accountLocked, w)
      else
        match recordMFAChallengeAttempt w.attempts w.now c.id with
        | (false, attempts) => (.error .invalidCredentials, { w with attempts := attempts })
        | (true, attempts) =>
          checkCode env { w with attempts := attempts } user c.tenantID code jti sid

end Calls

inductive Action where
  | tick (d : Nat)
  | login (tenantID username password jti sid : String)
  | verifyLoginMFA (tok : Bytes) (code jti sid : String)

def step (env : Env) (w : World) : Action → World
  | .tick d => { w with now := w.now + d }
  | .login tenantID username password jti sid =>
    (login env w tenantID username password jti sid).2
  | .verifyLoginMFA tok code jti sid => (verifyLoginMFA env w tok code jti sid).2

def checksOf (w : World) (u : String) : List Int :=
  (w.checks.filter fun p => p.1 = u).map (·.2)

def counter (w : World) (u : String) : Counter where
  fails := failedCount w.accounts u
  lockedUntil := (w.accounts.get u).bind (·.lockedUntil)
  now := w.now
  log := checksOf w u

def NoValidCode (env : Env) (w : World) : Action → Prop
  | .verifyLoginMFA _ code _ _ => ∀ u, env.validCode u w.now code = false
  | _ => True

def WholeMicros (w : World) : Prop := timestamptz w.now = w.now

def Unforged (env : Env) (w : World) : Action → Prop
  | .verifyLoginMFA tok _ _ _ => ∀ c ∈ env.verified tok, c ∈ w.issued
  | _ => True

def SettledLogin (env : Env) (w : World) : Action → Prop
  | .login t name password _ _ =>
    ∀ user ∈ (authenticateUser env.argon2 w.accounts w.now t name password).1.toOption,
      user.failedLogins = 0 ∨ maxFailedLogins ≤ user.failedLogins
  | _ => True

section Counters

variable {env : Env} {w w' : World} {u : String} {user : Account}

theorem counter_open (hget : w.accounts.get u = some user) (h : user.locked w.now = false) :
    (counter w u).Open := by
  intro d hd
  have hlock : user.lockedUntil = some d := by simpa [counter, hget] using hd
  show d ≤ w.now
  simpa [Account.locked, hlock] using h

theorem counter_fails (hget : w.accounts.get u = some user) :
    (counter w u).fails = user.failedLogins := by
  simp [counter, failedCount, hget]

theorem counter_recordFailure {logged : Bool} (hmicros : WholeMicros w)
    (hget : w.accounts.get u = some user)
    (haccounts : w'.accounts = recordFailure w.accounts w.now u) (hnow : w'.now = w.now)
    (hlog : checksOf w' u = if logged then checksOf w u ++ [w.now] else checksOf w u) :
    counter w' u = (counter w u).failed maxFailedLogins lockoutDuration logged := by
  have hget' : w'.accounts.get u = some (afterFailure w.now user) := by
    rw [haccounts, get_recordFailure_self, hget]
    rfl
  have hend : timestamptz (w.now + lockoutDuration) = w.now + lockoutDuration := by
    unfold WholeMicros timestamptz Verified.Rfc3339.truncateMicro at *
    unfold lockoutDuration minute second
    omega
  simp only [counter, Counter.failed, failedCount, hget', hget, hnow, hlog, afterFailure,
    Option.map_some, Option.getD_some, Option.bind_some, hend]

theorem counter_congr (hget : w'.accounts.get u = w.accounts.get u) (hnow : w'.now = w.now)
    (hlog : checksOf w' u = checksOf w u) : counter w' u = counter w u := by
  simp only [counter, failedCount, hget, hnow, hlog]

theorem checksOf_snoc (u' : String) (t : Int) (h : w'.checks = w.checks ++ [(u', t)]) :
    checksOf w' u = if u' = u then checksOf w u ++ [t] else checksOf w u := by
  unfold checksOf
  rw [h, List.filter_append]
  by_cases hu : u' = u <;> simp [hu]

theorem move_recordFailure {u' : String} (logged : Bool) (hmicros : WholeMicros w)
    (hget : w.accounts.get u' = some user) (hlocked : user.locked w.now = false)
    (haccounts : w'.accounts = recordFailure w.accounts w.now u') (hnow : w'.now = w.now)
    (hchecks : w'.checks = if logged then w.checks ++ [(u', w.now)] else w.checks) :
    Counter.Move maxFailedLogins lockoutDuration (counter w u) (counter w' u) := by
  have hlog : checksOf w' u =
      if logged = true ∧ u' = u then checksOf w u ++ [w.now] else checksOf w u := by
    cases logged with
    | false =>
      unfold checksOf
      rw [hchecks]
      simp
    | true => simpa using checksOf_snoc u' w.now hchecks
  by_cases hu : u' = u
  · subst hu
    rw [counter_recordFailure hmicros hget haccounts hnow (by simpa using hlog)]
    exact .fail logged (counter_open hget hlocked)
  · rw [counter_congr (by rw [haccounts, get_recordFailure_ne (Ne.symm hu)]) hnow
      (by simpa [hu] using hlog)]
    exact .refl ..

theorem move_login {t name password jti sid : String} (hmicros : WholeMicros w)
    (hs : SettledLogin env w (.login t name password jti sid)) :
    Counter.Move maxFailedLogins lockoutDuration (counter w u)
      (counter (login env w t name password jti sid).2 u) := by
  rcases authenticateUser_cases env.argon2 w.accounts w.now t name password with
    ⟨e, he⟩ | ⟨a, hname, hcheck, hwrong | ⟨_, hright⟩⟩
  · rw [login, he]
    exact .refl ..
  · have hget := w.accounts.get_key (mem_of_getHumanByUsername hname)
    rw [login, hwrong]
    exact move_recordFailure false hmicros hget (checkAccount_ok_iff.mp hcheck).2 rfl rfl rfl
  · have hget : w.accounts.get a.id = some a :=
      w.accounts.get_key (mem_of_getHumanByUsername hname)
    have hlogin : (login env w t name password jti sid).2 =
        { w with
          accounts := resetFailedLogins w.accounts a.id
          issued := w.issued ++ [(resultOf env w a jti sid).claims] } := by
      rw [login, hright]
    by_cases hu : a.id = u
    · subst hu
      have hcleared : (resetFailedLogins w.accounts a.id).get a.id =
          some { a with failedLogins := 0, lockedUntil := none } := by
        rw [get_resetFailedLogins_self, hget]
        rfl
      have hmove : Counter.Move maxFailedLogins lockoutDuration (counter w a.id) _ :=
        .clear (counter_open hget (checkAccount_ok_iff.mp hcheck).2)
          (counter_fails hget ▸ hs a (by rw [hright]; rfl))
      simpa [hlogin, counter, Counter.cleared, failedCount, hcleared, checksOf] using hmove
    · have hsame : counter (login env w t name password jti sid).2 u = counter w u := by
        rw [hlogin]
        exact counter_congr (get_resetFailedLogins_ne (Ne.symm hu)) rfl rfl
      rw [hsame]
      exact .refl ..

theorem move_verifyLoginMFA {tok : Bytes} {code jti sid : String} (hmicros : WholeMicros w)
    (hv : NoValidCode env w (.verifyLoginMFA tok code jti sid)) :
    Counter.Move maxFailedLogins lockoutDuration (counter w u)
      (counter (verifyLoginMFA env w tok code jti sid).2 u) := by
  unfold verifyLoginMFA
  split
  · exact .refl ..
  · rename_i c _
    split
    · exact .refl ..
    · rename_i user hget
      split_ifs with hlocked
      · exact .refl ..
      · split
        · exact .refl ..
        · unfold checkCode
          split_ifs with hmfa hvalid
          · exact .refl ..
          · rw [hv user.id] at hvalid
            cases hvalid
          · have hid : user.id = c.subject := Table.key_of_get (t := w.accounts) hget
            exact move_recordFailure true (w := w) hmicros (hid ▸ hget)
              (by simpa using hlocked) rfl rfl rfl

theorem step_move (a : Action) (hmicros : WholeMicros w) (hv : NoValidCode env w a)
    (hs : SettledLogin env w a) :
    Counter.Move maxFailedLogins lockoutDuration (counter w u) (counter (step env w a) u) := by
  cases a with
  | tick d => exact .wait (Int.le_add_of_nonneg_right (Int.natCast_nonneg d))
  | login t name password jti sid => exact move_login hmicros hs
  | verifyLoginMFA tok code jti sid => exact move_verifyLoginMFA hmicros hv

end Counters

def CodesBounded (env : Env) (w : World) (acts : List Action) : Prop :=
  ∀ u, WindowBounded maxFailedLogins lockoutDuration (checksOf (run (step env) w acts) u)

def start (accounts : Accounts) (assignments : List RoleAssignment) (now : Int) : World :=
  ⟨accounts, assignments, Store.empty, now, [], []⟩

/-- **The second factor is not brute-forced**, if no login clears the count too early. -/
theorem codes_bounded (env : Env) (accounts : Accounts) (assignments : List RoleAssignment)
    (now : Int) (acts : List Action) (hG : Guarded (step env)
      (fun w a => (WholeMicros w ∧ NoValidCode env w a) ∧ SettledLogin env w a)
      (start accounts assignments now) acts) :
    CodesBounded env (start accounts assignments now) acts := by
  intro u
  have hinv := run_invariant
    (I := fun w => Counter.Inv maxFailedLogins lockoutDuration (counter w u))
    (fun w a hw hG => (step_move a hG.1.1 hG.1.2 hG.2).inv (by decide) hw)
    (Counter.Inv.of_nil rfl) hG
  exact hinv.bounded

def ann : Account where
  id := "u"
  tenantID := "t"
  username := "ann"
  email := "ann@a.b"
  kind := "human"
  isGlobalAdmin := false
  passwordHash := "h"
  status := .active
  isActive := true
  failedLogins := 0
  lockedUntil := none
  mfaEnabled := true

def challenge (jti : String) : Claims :=
  typedToken 0 jti "u" "t" tokenTypeMFAChallenge "registry-auth-mfa" mfaChallengeTTL

def guessEnv : Env where
  argon2 := fun _ _ => some true
  requireMFA := fun _ => false
  verified := fun tok =>
    if tok = [1] then some (challenge "j1") else if tok = [2] then some (challenge "j2") else none
  validCode := fun _ _ _ => false

theorem guessEnv_validCode (u : String) (now : Int) (code : String) :
    guessEnv.validCode u now code = false := rfl

def annStart : World := start ⟨[ann], by decide⟩ [] 0

def guesses (n : Nat) (tok : Bytes) : List Action :=
  List.replicate n (.verifyLoginMFA tok "000000" "j" "s")

def lockedOnce : List Action :=
  [.login "t" "ann" "pw" "j1" "s"] ++ guesses 5 [1] ++
    [.tick 900000000000, .login "t" "ann" "pw" "j2" "s"]

theorem locked_once_bounded : CodesBounded guessEnv annStart lockedOnce := by
  refine codes_bounded guessEnv ⟨[ann], by decide⟩ [] 0 lockedOnce ?_
  simp only [lockedOnce, guesses, List.replicate, List.cons_append, List.nil_append, Guarded,
    NoValidCode, SettledLogin, WholeMicros, guessEnv_validCode, implies_true, and_true]
  decide +kernel

def fourAndFour : List Action :=
  [.login "t" "ann" "pw" "j1" "s"] ++ guesses 4 [1] ++ [.login "t" "ann" "pw" "j2" "s"] ++
    guesses 4 [2]

theorem codes_unbounded :
    ¬ ∀ env accounts assignments now acts, Guarded (step env)
        (fun w a => (WholeMicros w ∧ NoValidCode env w a) ∧ Unforged env w a)
        (start accounts assignments now) acts →
      CodesBounded env (start accounts assignments now) acts := by
  intro h
  have hbounded := h guessEnv ⟨[ann], by decide⟩ [] 0 fourAndFour ?_ "u" 0
  · have hcount : (checksOf (run (step guessEnv) annStart fourAndFour) "u").countP
        (fun t => 0 ≤ t ∧ t < 0 + lockoutDuration) = 8 := by decide +kernel
    exact absurd (hcount ▸ hbounded) (by decide)
  · simp only [fourAndFour, guesses, List.replicate, List.cons_append, List.nil_append, Guarded,
      NoValidCode, Unforged, WholeMicros, guessEnv_validCode, implies_true, and_true]
    decide +kernel

end OciJanus.Auth.MfaLogin
