import OciJanus.Auth.Token
import OciJanus.Verified.Run

/-!
# Enrolling and dropping a second factor

Each reads the MFA columns, decides, and later writes them without looking again.
-/

namespace OciJanus.Auth.MfaEnrollment

open Auth.Token (second)
open Verified.Run List

structure MFAState where
  enabled : Bool
  secretEnc : Option String
  (secretKEKVersion enrolledAt lastUsedCounter : Option Int)
  deriving DecidableEq

structure BackupCode where
  (id codeHash : String)
  used : Bool

def MFAState.cleared : MFAState := ⟨false, none, none, none, none⟩

def setPendingMFASecret (m : MFAState) (enc : String) (kekVersion : Int) : MFAState :=
  { m with
    enabled := false
    secretEnc := some enc
    secretKEKVersion := some kekVersion
    lastUsedCounter := none }

def enableMFA (m : MFAState) (now : Int) : MFAState :=
  { m with
    enabled := true
    enrolledAt := some now }

def advanceMFACounter (m : MFAState) (counter : Int) : Option MFAState :=
  if m.lastUsedCounter.all (· < counter) then some { m with lastUsedCounter := some counter }
  else none

structure Env where
  argon2 : String → String → Bool
  decrypt : String → Option String
  hotp : String → Int → Option String

def validateCode (hotp : String → Int → Option String) (secret code : String) (now : Int) :
    Option Int :=
  [-1, 0, 1].findSome? fun delta =>
    if hotp secret (now / second / 30 + delta) = some code then
      some (now / second / 30 + delta)
    else none

def checkTOTP (env : Env) (st : MFAState) (code : String) (now : Int) :
    Except Unit (Option (String × Int)) :=
  match st.secretEnc.bind env.decrypt with
  | none => .error ()
  | some secret =>
    match validateCode env.hotp secret code now with
    | none => .ok none
    | some counter =>
      if st.lastUsedCounter.any (counter ≤ ·) then .ok none
      else .ok (some (secret, counter))

/-- Where a call stands between two of its steps. -/
inductive Proc where
  | idle
  | beginning
  | completing (st : MFAState) (code : String)
  | proved (enc : String)
  | enabled
  | reauthing (code : String)
  | consuming (st : MFAState) (code : String)
  | searching (code : String)
  | marking (id : String)
  | reauthed
  | disabled
  deriving DecidableEq

structure World where
  mfa : MFAState
  passwordHash : String
  codes : List BackupCode
  procs : Nat → Proc
  accepted : List String

inductive Action where
  | beginRead (p : Nat)
  | setPending (p : Nat) (enc : String) (kekVersion : Int)
  | completeRead (p : Nat) (code : String)
  | completeAdvance (p : Nat) (now : Int)
  | enable (p : Nat) (now : Int)
  | storeCodes (p : Nat) (codes : List BackupCode)
  | reauthPassword (p : Nat) (password code : String)
  | consumeRead (p : Nat)
  | consumeAdvance (p : Nat) (now : Int)
  | listCodes (p : Nat)
  | markCode (p : Nat)
  | disable (p : Nat)
  | deleteCodes (p : Nat)

section Steps

variable (env : Env) (w : World)

def World.goto (p : Nat) (s : Proc) : World :=
  { w with procs := Function.update w.procs p s }

def World.accept (p : Nat) (secret : String) (counter : Int) (next spent : Proc) : World :=
  match advanceMFACounter w.mfa counter with
  | none => w.goto p spent
  | some m => { w with mfa := m, accepted := secret :: w.accepted }.goto p next

def completeAdvance (p : Nat) (st : MFAState) (code : String) (now : Int) : World :=
  match checkTOTP env st code now with
  | .error () => w.goto p .idle
  | .ok none => w.goto p .idle
  | .ok (some (secret, counter)) =>
    w.accept p secret counter (.proved (st.secretEnc.getD "")) .idle

def consumeAdvance (p : Nat) (st : MFAState) (code : String) (now : Int) : World :=
  match checkTOTP env st code now with
  | .error () => w.goto p .idle
  | .ok none => w.goto p (.searching code)
  | .ok (some (secret, counter)) => w.accept p secret counter .reauthed (.searching code)

def reauthPassword (p : Nat) (password code : String) : World :=
  if password ≠ "" ∧ env.argon2 password w.passwordHash then w.goto p .reauthed
  else if code ≠ "" then w.goto p (.reauthing code)
  else w

def matchingCode (code : String) : Option BackupCode :=
  w.codes.find? fun b => !b.used && env.argon2 code b.codeHash

def markUsed (id : String) (b : BackupCode) : BackupCode :=
  if b.id = id then { b with used := true } else b

def markCode (p : Nat) (id : String) : World :=
  if w.codes.any fun b => b.id = id ∧ b.used = false then
    { w with codes := w.codes.map (markUsed id) }.goto p .reauthed
  else w.goto p .idle

def step : Action → World
  | .beginRead p =>
    if w.procs p = .idle ∧ w.mfa.enabled = false then w.goto p .beginning else w
  | .setPending p enc kekVersion =>
    if w.procs p = .beginning then
      { w with mfa := setPendingMFASecret w.mfa enc kekVersion }.goto p .idle
    else w
  | .completeRead p code =>
    if w.procs p = .idle ∧ w.mfa.secretEnc.isSome then w.goto p (.completing w.mfa code) else w
  | .completeAdvance p now =>
    match w.procs p with
    | .completing st code => completeAdvance env w p st code now
    | _ => w
  | .enable p now =>
    match w.procs p with
    | .proved _ => { w with mfa := enableMFA w.mfa now }.goto p .enabled
    | _ => w
  | .storeCodes p codes =>
    if w.procs p = .enabled then { w with codes := codes }.goto p .idle else w
  | .reauthPassword p password code =>
    if w.procs p = .idle then reauthPassword env w p password code else w
  | .consumeRead p =>
    match w.procs p with
    | .reauthing code =>
      if w.mfa.enabled = true ∧ w.mfa.secretEnc.isSome then
        w.goto p (.consuming w.mfa code)
      else w.goto p .idle
    | _ => w
  | .consumeAdvance p now =>
    match w.procs p with
    | .consuming st code => consumeAdvance env w p st code now
    | _ => w
  | .listCodes p =>
    match w.procs p with
    | .searching code =>
      match matchingCode env w code with
      | none => w.goto p .idle
      | some b => w.goto p (.marking b.id)
    | _ => w
  | .markCode p =>
    match w.procs p with
    | .marking id => markCode w p id
    | _ => w
  | .disable p =>
    if w.procs p = .reauthed then { w with mfa := .cleared }.goto p .disabled else w
  | .deleteCodes p =>
    if w.procs p = .disabled then { w with codes := [] }.goto p .idle else w

end Steps

def Proven (env : Env) (accepted : List String) (enc : String) : Prop :=
  ∃ secret ∈ accepted, env.decrypt enc = some secret

def Reauthenticates (env : Env) (w : World) (p : Nat) : Action → Prop
  | .reauthPassword q password _ => q = p ∧ env.argon2 password w.passwordHash = true
  | .consumeAdvance q now =>
    q = p ∧ ∃ st code secret counter, w.procs p = .consuming st code ∧
      checkTOTP env st code now = .ok (some (secret, counter)) ∧
      (advanceMFACounter w.mfa counter).isSome
  | .markCode q => q = p ∧ ∃ b ∈ w.codes, w.procs p = .marking b.id ∧ b.used = false
  | _ => False

structure ProcsKept (env : Env) (w : World) (a : Action) (w' : World) : Prop where
  proofs : ∀ p enc, w'.procs p = .proved enc → w.procs p = .proved enc ∨ Proven env w'.accepted enc
  reauths : ∀ p, w'.procs p = .reauthed → w.procs p = .reauthed ∨ Reauthenticates env w p a

inductive Effect (env : Env) (w : World) (a : Action) (w' : World) : Prop
  | quiet (flag : w'.mfa.enabled = w.mfa.enabled) (secret : w'.mfa.secretEnc = w.mfa.secretEnc)
      (accepted : w.accepted ⊆ w'.accepted) (procs : ProcsKept env w a w')
  | pending (p : Nat) (enc : String) (kekVersion : Int) (action : a = .setPending p enc kekVersion)
      (found : w.procs p = .beginning) (flag : w'.mfa.enabled = false)
      (accepted : w'.accepted = w.accepted) (procs : ProcsKept env w a w')
  | enables (p : Nat) (now : Int) (enc : String) (action : a = .enable p now)
      (found : w.procs p = .proved enc) (flag : w'.mfa.enabled = true)
      (secret : w'.mfa.secretEnc = w.mfa.secretEnc) (accepted : w'.accepted = w.accepted)
      (procs : ProcsKept env w a w')
  | disables (p : Nat) (action : a = .disable p) (found : w.procs p = .reauthed)
      (flag : w'.mfa.enabled = false) (accepted : w'.accepted = w.accepted)
      (procs : ProcsKept env w a w')

section Effects

variable {env : Env} {w w' : World} {a : Action} {p : Nat} {s : Proc}

theorem procsKept_of_update (hprocs : w'.procs = Function.update w.procs p s)
    (hproof : ∀ enc, s = .proved enc → Proven env w'.accepted enc)
    (hreauth : s = .reauthed → Reauthenticates env w p a) : ProcsKept env w a w' := by
  have hcases : ∀ q, q = p ∧ w'.procs q = s ∨ w'.procs q = w.procs q := by
    intro q
    rw [hprocs]
    by_cases hq : q = p
    · subst hq
      exact Or.inl ⟨rfl, Function.update_self ..⟩
    · exact Or.inr (Function.update_of_ne hq ..)
  constructor
  · intro q enc hq
    rcases hcases q with ⟨_, hs⟩ | hsame
    · exact Or.inr (hproof enc (hs.symm.trans hq))
    · exact Or.inl (hsame.symm.trans hq)
  · intro q hq
    rcases hcases q with ⟨rfl, hs⟩ | hsame
    · exact Or.inr (hreauth (hs.symm.trans hq))
    · exact Or.inl (hsame.symm.trans hq)

theorem goto_effect (hproof : ∀ enc, s ≠ .proved enc)
    (hreauth : s = .reauthed → Reauthenticates env w p a) : Effect env w a (w.goto p s) :=
  .quiet rfl rfl (List.Subset.refl _)
    (procsKept_of_update rfl (fun enc h => absurd h (hproof enc)) hreauth)

theorem self_effect : Effect env w a w :=
  .quiet rfl rfl (List.Subset.refl _) ⟨fun _ _ h => Or.inl h, fun _ h => Or.inl h⟩

variable {st : MFAState} {code : String} {now : Int}

theorem checkTOTP_ok {secret : String} {counter : Int}
    (h : checkTOTP env st code now = .ok (some (secret, counter))) :
    ∃ enc, st.secretEnc = some enc ∧ env.decrypt enc = some secret := by
  unfold checkTOTP at h
  cases hsecret : st.secretEnc.bind env.decrypt with
  | none => simp [hsecret] at h
  | some s =>
    obtain ⟨enc, henc, hdec⟩ := Option.bind_eq_some_iff.mp hsecret
    cases hval : validateCode env.hotp s code now with
    | none => simp [hsecret, hval] at h
    | some c =>
      simp only [hsecret, hval] at h
      split_ifs at h
      · cases h
      · cases h
        exact ⟨enc, henc, hdec⟩

theorem accept_effect {secret : String} {counter : Int} {next spent : Proc}
    (hspent : ∀ enc, spent ≠ .proved enc) (hspent' : spent ≠ .reauthed)
    (hnext : ∀ enc, next = .proved enc → env.decrypt enc = some secret)
    (hreauth : (advanceMFACounter w.mfa counter).isSome → next = .reauthed →
      Reauthenticates env w p a) : Effect env w a (w.accept p secret counter next spent) := by
  unfold World.accept
  cases hm : advanceMFACounter w.mfa counter with
  | none => exact goto_effect hspent fun h => absurd h hspent'
  | some m =>
    have hm' := hm
    unfold advanceMFACounter at hm'
    split_ifs at hm'
    cases hm'
    refine .quiet rfl rfl (subset_cons_self ..) (procsKept_of_update rfl ?_ ?_)
    · exact fun enc h => ⟨secret, mem_cons_self, hnext enc h⟩
    · exact hreauth (by rw [hm]; rfl)

theorem completeAdvance_effect : Effect env w a (completeAdvance env w p st code now) := by
  unfold completeAdvance
  split
  · exact goto_effect nofun nofun
  · exact goto_effect nofun nofun
  · rename_i secret counter hcheck
    obtain ⟨enc, henc, hdec⟩ := checkTOTP_ok hcheck
    refine accept_effect nofun nofun (fun e he => ?_) nofun
    rw [henc] at he
    cases he
    exact hdec

theorem consumeAdvance_effect (hp : w.procs p = .consuming st code) :
    Effect env w (.consumeAdvance p now) (consumeAdvance env w p st code now) := by
  unfold consumeAdvance
  split
  · exact goto_effect nofun nofun
  · exact goto_effect nofun nofun
  · rename_i secret counter hcheck
    exact accept_effect nofun nofun nofun fun hadv _ =>
      ⟨rfl, st, code, secret, counter, hp, hcheck, hadv⟩

theorem reauthPassword_effect {password : String} :
    Effect env w (.reauthPassword p password code) (reauthPassword env w p password code) := by
  unfold reauthPassword
  split_ifs with hpassword
  · exact goto_effect nofun fun _ => ⟨rfl, hpassword.2⟩
  · exact goto_effect nofun nofun
  · exact self_effect

theorem markCode_effect {id : String} (hp : w.procs p = .marking id) :
    Effect env w (.markCode p) (markCode w p id) := by
  unfold markCode
  split_ifs with hany
  · obtain ⟨b, hb, hid⟩ := any_eq_true.mp hany
    obtain ⟨rfl, hunused⟩ := of_decide_eq_true hid
    exact .quiet rfl rfl (List.Subset.refl _)
      (procsKept_of_update rfl nofun fun _ => ⟨rfl, b, hb, hp, hunused⟩)
  · exact goto_effect nofun nofun

theorem step_effect (env : Env) (w : World) (a : Action) : Effect env w a (step env w a) := by
  cases a with
  | beginRead | completeRead =>
    simp only [step]
    split_ifs
    · exact goto_effect nofun nofun
    · exact self_effect
  | setPending p enc kekVersion =>
    simp only [step]
    split_ifs with hp
    · exact .pending p enc kekVersion rfl hp rfl rfl (procsKept_of_update rfl nofun nofun)
    · exact self_effect
  | completeAdvance p now =>
    simp only [step]
    split
    · exact completeAdvance_effect
    · exact self_effect
  | enable p now =>
    simp only [step]
    split
    · rename_i enc hp
      exact .enables p now enc rfl hp rfl rfl rfl (procsKept_of_update rfl nofun nofun)
    · exact self_effect
  | storeCodes | deleteCodes =>
    simp only [step]
    split_ifs
    · exact .quiet rfl rfl (List.Subset.refl _) (procsKept_of_update rfl nofun nofun)
    · exact self_effect
  | reauthPassword p password code =>
    simp only [step]
    split_ifs
    · exact reauthPassword_effect
    · exact self_effect
  | consumeRead p =>
    simp only [step]
    split
    · split_ifs
      · exact goto_effect nofun nofun
      · exact goto_effect nofun nofun
    · exact self_effect
  | consumeAdvance p now =>
    simp only [step]
    split
    · rename_i st code hp
      exact consumeAdvance_effect hp
    · exact self_effect
  | listCodes p =>
    simp only [step]
    split
    · split
      · exact goto_effect nofun nofun
      · exact goto_effect nofun nofun
    · exact self_effect
  | markCode p =>
    simp only [step]
    split
    · rename_i id hp
      exact markCode_effect hp
    · exact self_effect
  | disable p =>
    simp only [step]
    split_ifs with hp
    · exact .disables p rfl hp rfl rfl (procsKept_of_update rfl nofun nofun)
    · exact self_effect

theorem Effect.procs (h : Effect env w a w') : ProcsKept env w a w' := by
  cases h with
  | quiet _ _ _ hprocs => exact hprocs
  | pending _ _ _ _ _ _ _ hprocs => exact hprocs
  | enables _ _ _ _ _ _ _ _ hprocs => exact hprocs
  | disables _ _ _ _ _ hprocs => exact hprocs

theorem Effect.accepted (h : Effect env w a w') : w.accepted ⊆ w'.accepted := by
  cases h with
  | quiet _ _ hacc _ => exact hacc
  | pending _ _ _ _ _ _ hacc _ => exact hacc ▸ List.Subset.refl _
  | enables _ _ _ _ _ _ _ hacc _ => exact hacc ▸ List.Subset.refl _
  | disables _ _ _ _ hacc _ => exact hacc ▸ List.Subset.refl _

end Effects

def StillAsRead (w : World) : Action → Prop
  | .setPending p _ _ => w.procs p = .beginning → w.mfa.enabled = false
  | .enable p _ => ∀ enc, w.procs p = .proved enc → w.mfa.secretEnc = some enc
  | _ => True

structure Inv (env : Env) (w : World) : Prop where
  stored : w.mfa.enabled = true → ∃ enc, w.mfa.secretEnc = some enc ∧ Proven env w.accepted enc
  procs : ∀ p enc, w.procs p = .proved enc → Proven env w.accepted enc

theorem Proven.mono {env : Env} {l l' : List String} {enc : String} (hsub : l ⊆ l')
    (h : Proven env l enc) : Proven env l' enc := by
  obtain ⟨secret, hs, hdec⟩ := h
  exact ⟨secret, hsub hs, hdec⟩

section Invariants

variable {env : Env} {w : World} {a : Action}

theorem Inv.step (hw : Inv env w) (hG : StillAsRead w a) : Inv env (step env w a) := by
  have h := step_effect env w a
  generalize MfaEnrollment.step env w a = w' at h
  constructor
  · intro hen
    cases h with
    | quiet hflag hsecret hacc _ =>
      obtain ⟨enc, henc, hp⟩ := hw.stored (hflag ▸ hen)
      exact ⟨enc, hsecret.trans henc, hp.mono hacc⟩
    | pending _ _ _ _ _ hflag _ _ =>
      rw [hflag] at hen
      cases hen
    | enables p now enc ha hfound _ hsecret hacc _ =>
      subst ha
      exact ⟨enc, hsecret.trans (hG enc hfound), hacc ▸ hw.procs p enc hfound⟩
    | disables _ _ _ hflag _ _ =>
      rw [hflag] at hen
      cases hen
  · intro p enc hp
    rcases h.procs.proofs p enc hp with hold | hnew
    · exact (hw.procs p enc hold).mono h.accepted
    · exact hnew

theorem cleared_by (hG : StillAsRead w a) (hon : w.mfa.enabled = true)
    (hoff : (step env w a).mfa.enabled = false) : ∃ p, a = .disable p ∧ w.procs p = .reauthed := by
  have h := step_effect env w a
  generalize step env w a = w' at h hoff
  cases h with
  | quiet hflag _ _ _ =>
    rw [hflag, hon] at hoff
    cases hoff
  | pending p enc kek ha hfound _ _ _ =>
    subst ha
    rw [hG hfound] at hon
    cases hon
  | enables p now enc _ _ hflag _ _ _ =>
    rw [hflag] at hoff
    cases hoff
  | disables p ha hfound _ _ _ => exact ⟨p, ha, hfound⟩

end Invariants

def start (passwordHash : String) : World := ⟨.cleared, passwordHash, [], fun _ => .idle, []⟩

def ClearedByOwner (env : Env) (w : World) (acts : List Action) : Prop :=
  ∀ before a later, acts = before ++ a :: later → (run (step env) w before).mfa.enabled = true →
      (step env (run (step env) w before) a).mfa.enabled = false →
        ∃ p, a = .disable p ∧ ∃ soon b rest, before = soon ++ b :: rest ∧
          Reauthenticates env (run (step env) w soon) p b

def EnabledProven (env : Env) (w : World) (acts : List Action) : Prop :=
  let w' := run (step env) w acts
  w'.mfa.enabled = true → ∃ enc, w'.mfa.secretEnc = some enc ∧ Proven env w'.accepted enc

theorem start_inv (env : Env) (passwordHash : String) : Inv env (start passwordHash) :=
  ⟨nofun, nofun⟩

theorem reauthed_origin {env : Env} {w : World} {acts : List Action} {p : Nat}
    (hidle : w.procs p ≠ .reauthed) (h : (run (step env) w acts).procs p = .reauthed) :
    ∃ soon b rest, acts = soon ++ b :: rest ∧ Reauthenticates env (run (step env) w soon) p b := by
  have horigin := run_origin (G := fun _ _ => True) (P := fun w : World => w.procs p = .reauthed)
    (Q := fun w b => Reauthenticates env w p b)
    (fun w b _ hp => (step_effect env w b).procs.reauths p hp)
    (guarded_of_forall (P := fun _ => True) fun _ _ => trivial) h
  exact horigin.resolve_left hidle

/-- **An enabled factor is dropped by its owner only, and is always proven.** -/
theorem factor_kept_and_proven (env : Env) (passwordHash : String) (acts : List Action)
    (hG : Guarded (step env) StillAsRead (start passwordHash) acts) :
    ClearedByOwner env (start passwordHash) acts ∧ EnabledProven env (start passwordHash) acts := by
  constructor
  · rintro before a later rfl hon hoff
    obtain ⟨_, ha, _⟩ := guarded_append.mp hG
    obtain ⟨p, haction, hreauthed⟩ := cleared_by ha hon hoff
    exact ⟨p, haction, reauthed_origin nofun hreauthed⟩
  · exact (run_invariant (fun _ _ hw hG => hw.step hG) (start_inv env passwordHash) hG).stored

def plainEnv : Env where
  argon2 := fun password hash => password = hash
  decrypt := fun enc => if enc = "enc A" then some "A" else if enc = "enc B" then some "B" else none
  hotp := fun secret _ => some secret

def enrolA : List Action :=
  [.beginRead 1, .setPending 1 "enc A" 1, .completeRead 2 "A", .completeAdvance 2 0, .enable 2 0,
    .storeCodes 2 []]

def enrolThenDisable : List Action :=
  enrolA ++ [.reauthPassword 3 "pw" "", .disable 3, .deleteCodes 3]

theorem enrol_then_disable_kept :
    ClearedByOwner plainEnv (start "pw") enrolThenDisable ∧
      (run (step plainEnv) (start "pw") enrolA).mfa.enabled = true ∧
      EnabledProven plainEnv (start "pw") enrolA := by
  have hG : Guarded (step plainEnv) StillAsRead (start "pw") enrolThenDisable := by
    simp only [enrolThenDisable, enrolA, cons_append, nil_append, Guarded, StillAsRead,
      true_and, and_true]
    refine ⟨by decide +kernel, fun enc henc => ?_⟩
    have hproved : Proc.proved "enc A" = .proved enc := henc
    cases hproved
    rfl
  exact ⟨(factor_kept_and_proven plainEnv "pw" enrolThenDisable hG).1, by decide +kernel,
    (factor_kept_and_proven plainEnv "pw" enrolA (guarded_append.mp hG).1).2⟩

def beginAcross : List Action := .beginRead 0 :: enrolA ++ [.setPending 0 "enc B" 1]

def completeAcross : List Action :=
  [.beginRead 1, .setPending 1 "enc A" 1, .completeRead 2 "A", .completeAdvance 2 0,
    .beginRead 0, .setPending 0 "enc B" 1, .enable 2 0]

theorem factor_dropped_or_unproven :
    (¬ ∀ env passwordHash acts, ClearedByOwner env (start passwordHash) acts) ∧
      ¬ ∀ env passwordHash acts, EnabledProven env (start passwordHash) acts := by
  constructor
  · intro h
    obtain ⟨p, hp, _⟩ := h plainEnv "pw" beginAcross (.beginRead 0 :: enrolA)
      (.setPending 0 "enc B" 1) [] rfl (by decide +kernel) (by decide +kernel)
    cases hp
  · intro h
    obtain ⟨enc, henc, secret, hsecret, hdec⟩ := h plainEnv "pw" completeAcross (by decide +kernel)
    have hB : some "enc B" = some enc := henc
    cases hB
    have hA : secret ∈ ["A"] := hsecret
    cases mem_singleton.mp hA
    exact absurd hdec (by decide)

end OciJanus.Auth.MfaEnrollment
