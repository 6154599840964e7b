import OciJanus.Verified.Leases
import OciJanus.Verified.Run

/-!
# The queue of scheduled notifications

The sweep gives back every row in progress for more than five minutes, whether or not its
dispatcher still works on it.
-/

namespace OciJanus.Audit.ScheduledNotifications

open Verified Verified.Leases Verified.Run Function List

inductive Status where
  | pending
  | inProgress
  | delivered
  | failed
  deriving DecidableEq

structure Key where
  tenant : Nat
  category : String
  dueAt : Int
  deriving DecidableEq

structure Row where
  status : Status
  attempts : Nat
  lastError : Option String
  updatedAt : Int
  deliveredAt : Option Int
  deriving DecidableEq

namespace Row

def scheduled (now : Int) : Row := ⟨.pending, 0, none, now, none⟩

def claimed (now : Int) (r : Row) : Row :=
  { r with status := .inProgress, attempts := r.attempts + 1, updatedAt := now }

def markDelivered (now : Int) (r : Row) : Row :=
  { r with status := .delivered, deliveredAt := some now, updatedAt := now, lastError := none }

def markFailed (now : Int) (errMsg : String) (r : Row) : Row :=
  { r with
    status := if 3 ≤ r.attempts then .failed else .pending
    lastError := some errMsg
    updatedAt := now }

def stuck (now maxAge : Int) (r : Row) : Prop :=
  r.status = .inProgress ∧ r.updatedAt < now - maxAge

instance (now maxAge : Int) (r : Row) : Decidable (r.stuck now maxAge) :=
  inferInstanceAs (Decidable (_ ∧ _))

def revertStuckInProgress (now maxAge : Int) (r : Row) : Row :=
  if r.stuck now maxAge then { r with status := .pending, updatedAt := now } else r

def Settled (r : Row) : Prop := r.status = .delivered ∨ r.status = .failed

end Row

structure Config where
  (dispatcherBatch stuckInProgressMax : Int)

def Config.limit (cfg : Config) : Nat :=
  if cfg.dispatcherBatch ≤ 0 then 10 else cfg.dispatcherBatch.toNat

def minute : Int := 60000000000

def Config.maxAge (cfg : Config) : Int :=
  if cfg.stuckInProgressMax = 0 then 5 * minute else cfg.stuckInProgressMax

structure Claim where
  key : Key
  claimedAt : Int

structure Dispatcher where
  rows : List Claim
  outcome : Option (Option String)

/-- `claims` counts how often a row was claimed. -/
structure System (n : Nat) where
  now : Int
  rows : Key → Option Row
  dispatchers : Fin n → Dispatcher
  claims : Key → Nat

inductive Action (n : Nat) where
  | tick (elapsed : Nat)
  | schedule (k : Key)
  | sweep (i : Fin n)
  | claim (i : Fin n) (clock : Int) (ks : List Key) (reply : Bool)
  | dispatch (i : Fin n) (err : Option String)
  | mark (i : Fin n) (stored : Bool)
  | crash (i : Fin n)

namespace System

variable {n : Nat}

def empty (now : Int) : System n where
  now := now
  rows _ := none
  dispatchers _ := ⟨[], none⟩
  claims _ := 0

variable (cfg : Config) (s : System n)

def setDispatcher (i : Fin n) (d : Dispatcher) : System n :=
  { s with dispatchers := update s.dispatchers i d }

def due (clock : Int) (k : Key) : Bool :=
  match s.rows k with
  | some r => r.status = .pending ∧ k.dueAt ≤ clock
  | none => false

def claimRows (ks : List Key) (k : Key) : Option Row :=
  if k ∈ ks then (s.rows k).map (Row.claimed s.now) else s.rows k

def claim (i : Fin n) (clock : Int) (ks : List Key) (reply : Bool) : System n :=
  match (s.dispatchers i).rows with
  | _ :: _ => s
  | [] =>
    if ks.length ≤ cfg.limit ∧ ks.Nodup ∧ ∀ k ∈ ks, s.due clock k then
      { s.setDispatcher i ⟨if reply then ks.map (⟨·, s.now⟩) else [], none⟩ with
        rows := s.claimRows ks
        claims := fun k => if k ∈ ks then s.claims k + 1 else s.claims k }
    else s

def sweep (i : Fin n) : System n :=
  match (s.dispatchers i).rows with
  | _ :: _ => s
  | [] => { s with rows := fun k => (s.rows k).map (Row.revertStuckInProgress s.now cfg.maxAge) }

def markRow (err : Option String) (r : Row) : Row :=
  match err with
  | some errMsg => r.markFailed s.now errMsg
  | none => r.markDelivered s.now

def mark (i : Fin n) (stored : Bool) : System n :=
  match s.dispatchers i with
  | ⟨d :: rest, some err⟩ =>
    { s.setDispatcher i ⟨rest, none⟩ with
      rows :=
        if stored then update s.rows d.key ((s.rows d.key).map (s.markRow err))
        else s.rows }
  | _ => s

def step : Action n → System n
  | .tick elapsed => { s with now := s.now + elapsed }
  | .schedule k =>
    match s.rows k with
    | some _ => s
    | none => { s with rows := update s.rows k (some (Row.scheduled s.now)) }
  | .sweep i => s.sweep cfg i
  | .claim i clock ks reply => s.claim cfg i clock ks reply
  | .dispatch i err =>
    match s.dispatchers i with
    | ⟨d :: rest, none⟩ => s.setDispatcher i ⟨d :: rest, some err⟩
    | _ => s
  | .mark i stored => s.mark i stored
  | .crash i => s.setDispatcher i ⟨[], none⟩

def work : List Claim := inHand fun i => (s.dispatchers i).rows

end System

section Properties

variable {n : Nat} (cfg : Config) (s : System n) (a : Action n)

def KeepsSettled : Prop :=
  ∀ k r, s.rows k = some r → r.Settled → (s.step cfg a).rows k = some r

def SweepSpares : Prop :=
  match a with
  | .sweep _ =>
    ∀ k r, s.rows k = some r → r.stuck s.now cfg.maxAge → r.attempts < 3 ∧ k ∉ s.work.map Claim.key
  | _ => True

end Properties

section Invariant

variable {n : Nat} {cfg : Config} {s : System n}

def System.claimedAt (s : System n) : Key → Option Int :=
  leaseOf (fun r => r.status = .inProgress) Row.updatedAt s.rows

theorem work_setDispatcher (i : Fin n) (d : Dispatcher) :
    (s.setDispatcher i d).work =
      inHand (update (fun j => (s.dispatchers j).rows) i d.rows) := by
  show inHand (fun j => (update s.dispatchers i d j).rows) = _
  exact congrArg inHand (funext fun j => apply_update (fun _ => Dispatcher.rows) _ i d j)

variable {k : Key}

theorem due_iff {clock : Int} :
    s.due clock k = true ↔ ∃ r, s.rows k = some r ∧ r.status = .pending ∧ k.dueAt ≤ clock := by
  unfold System.due
  cases s.rows k with
  | none | some => simp

structure Budget (claims : Nat) (r : Row) : Prop where
  counted : r.attempts = claims
  bounded : r.attempts ≤ 3
  waiting : r.status = .pending → r.attempts < 3

theorem Budget.scheduled (now : Int) : Budget 0 (Row.scheduled now) :=
  ⟨rfl, Nat.zero_le 3, fun _ => Nat.zero_lt_succ 2⟩

variable {claims : Nat} {r : Row}

theorem Budget.claimed (h : Budget claims r)
    (hpending : r.status = .pending) (now : Int) : Budget (claims + 1) (r.claimed now) where
  counted := congrArg (· + 1) h.counted
  bounded := h.waiting hpending
  waiting h := by cases h

theorem Budget.revert (h : Budget claims r) {now maxAge : Int}
    (hspared : r.stuck now maxAge → r.attempts < 3) :
    Budget claims (r.revertStuckInProgress now maxAge) := by
  unfold Row.revertStuckInProgress
  by_cases hstuck : r.stuck now maxAge
  · rw [if_pos hstuck]
    exact ⟨h.counted, h.bounded, fun _ => hspared hstuck⟩
  · rw [if_neg hstuck]
    exact h

theorem Budget.mark (h : Budget claims r) (err : Option String) :
    Budget claims (s.markRow err r) := by
  cases err with
  | none => exact ⟨h.counted, h.bounded, fun h => by cases h⟩
  | some errMsg =>
    refine ⟨h.counted, h.bounded, fun hpending => ?_⟩
    have hpending : (if 3 ≤ r.attempts then Status.failed else Status.pending) = .pending :=
      hpending
    show r.attempts < 3
    by_contra hspent
    rw [if_pos (Nat.le_of_not_lt hspent)] at hpending
    cases hpending

def Accounted (claims : Nat) : Option Row → Prop
  | none => claims = 0
  | some r => Budget claims r

theorem Accounted.map {row : Option Row} (h : Accounted claims row) {f : Row → Row}
    (hf : ∀ r, row = some r → Budget claims r → Budget claims (f r)) :
    Accounted claims (row.map f) := by
  cases row with
  | none => exact h
  | some r => exact hf r rfl h

theorem accounted_update {rows : Key → Option Row} {claims : Key → Nat}
    {row : Option Row} (h : ∀ k, Accounted (claims k) (rows k)) (hk : Accounted (claims k) row) :
    ∀ k', Accounted (claims k') (update rows k row k') := by
  intro k'
  by_cases heq : k' = k
  · subst heq
    rw [update_self]
    exact hk
  · rw [update_of_ne heq]
    exact h k'

structure Inv (s : System n) : Prop where
  held : Held Claim.key Claim.claimedAt s.claimedAt s.work
  accounted : ∀ k, Accounted (s.claims k) (s.rows k)

namespace Inv

theorem empty (now : Int) : Inv (System.empty now : System n) where
  held := by
    have hwork : (System.empty now : System n).work = [] := by
      simp [System.work, inHand, System.empty]
    rw [hwork]
    exact Held.nil
  accounted _ := rfl

theorem claims_le (h : Inv s) (k : Key) : s.claims k ≤ 3 := by
  have hk := h.accounted k
  cases hrow : s.rows k with
  | none =>
    rw [hrow] at hk
    exact hk ▸ Nat.zero_le 3
  | some r =>
    rw [hrow] at hk
    exact hk.counted ▸ hk.bounded

theorem inProgress (h : Inv s) {c : Claim} (hc : c ∈ s.work) :
    ∃ r, s.rows c.key = some r ∧ r.status = .inProgress := by
  obtain ⟨r, hr, hstatus, _⟩ := leaseOf_eq_some.mp (h.held.leased c hc)
  exact ⟨r, hr, hstatus⟩

theorem not_mem_work (h : Inv s) {k : Key} {r : Row} (hr : s.rows k = some r)
    (hstatus : r.status ≠ .inProgress) : k ∉ s.work.map Claim.key := by
  intro hmem
  obtain ⟨c, hc, rfl⟩ := mem_map.mp hmem
  obtain ⟨r', hr', hprogress⟩ := h.inProgress hc
  rw [hr, Option.some.injEq] at hr'
  exact hstatus (hr' ▸ hprogress)

theorem schedule (h : Inv s) (k : Key) : Inv (s.step cfg (.schedule k)) := by
  unfold System.step
  dsimp only
  cases hk : s.rows k with
  | some r => exact h
  | none =>
    constructor
    · refine h.held.congr fun c hc => leaseOf_congr ?_
      have hne : c.key ≠ k := by
        intro heq
        obtain ⟨r, hr, _⟩ := h.inProgress hc
        rw [heq, hk] at hr
        cases hr
      exact update_of_ne hne _ _
    · refine accounted_update h.accounted ?_
      have hnone := h.accounted k
      rw [hk] at hnone
      exact hnone ▸ Budget.scheduled s.now

variable {i : Fin n}

theorem sweep (h : Inv s) (hspares : SweepSpares cfg s (.sweep i)) : Inv (s.sweep cfg i) := by
  unfold System.sweep
  cases (s.dispatchers i).rows with
  | cons d rest => exact h
  | nil =>
    constructor
    · refine h.held.congr fun c hc => leaseOf_congr ?_
      obtain ⟨r, hr, _⟩ := h.inProgress hc
      have hfresh : ¬ r.stuck s.now cfg.maxAge :=
        fun hstuck => (hspares c.key r hr hstuck).2 (mem_map_of_mem hc)
      show (s.rows c.key).map _ = s.rows c.key
      rw [hr, Option.map_some, Row.revertStuckInProgress, if_neg hfresh]
    · intro k
      exact (h.accounted k).map fun r hr hbudget =>
        hbudget.revert fun hstuck => (hspares k r hr hstuck).1

theorem claim (h : Inv s) (i : Fin n) (clock : Int) (ks : List Key) (reply : Bool) :
    Inv (s.claim cfg i clock ks reply) := by
  unfold System.claim
  cases hrows : (s.dispatchers i).rows with
  | cons d rest => exact h
  | nil =>
    dsimp only
    by_cases hall : ks.length ≤ cfg.limit ∧ ks.Nodup ∧ ∀ k ∈ ks, s.due clock k = true
    · rw [if_pos hall]
      obtain ⟨_, hnodup, hdue⟩ := hall
      have hpending : ∀ k ∈ ks, ∃ r, s.rows k = some r ∧ r.status = .pending := by
        intro k hk
        obtain ⟨r, hr, hstatus, _⟩ := due_iff.mp (hdue k hk)
        exact ⟨r, hr, hstatus⟩
      have hfree : ∀ k ∈ ks, k ∉ s.work.map Claim.key := by
        intro k hk
        obtain ⟨r, hr, hstatus⟩ := hpending k hk
        exact h.not_mem_work hr (by rw [hstatus]; exact Status.noConfusion)
      constructor
      · show Held _ _ _
          (s.setDispatcher i ⟨if reply then ks.map (Claim.mk · s.now) else [], none⟩).work
        rw [work_setDispatcher]
        refine h.held.takeAll reply hrows (fun _ => rfl) (fun _ => rfl) hnodup hfree ?_ ?_
        · exact fun k hk => leaseOf_congr (if_neg hk)
        · intro k hk
          obtain ⟨r, hr, _⟩ := hpending k hk
          refine leaseOf_eq_some.mpr ⟨r.claimed s.now, ?_, rfl, rfl⟩
          show s.claimRows ks k = _
          rw [System.claimRows, if_pos hk, hr]
          rfl
      · intro k
        have hk := h.accounted k
        show Accounted (if k ∈ ks then s.claims k + 1 else s.claims k) (s.claimRows ks k)
        unfold System.claimRows
        by_cases hmem : k ∈ ks
        · obtain ⟨r, hr, hstatus⟩ := hpending k hmem
          rw [if_pos hmem, if_pos hmem, hr]
          rw [hr] at hk
          exact hk.claimed hstatus s.now
        · rw [if_neg hmem, if_neg hmem]
          exact hk
    · rw [if_neg hall]
      exact h

theorem drop (h : Inv s) {rest : List Claim} {outcome : Option (Option String)}
    (hsub : rest.Sublist (s.dispatchers i).rows) : Inv (s.setDispatcher i ⟨rest, outcome⟩) := by
  refine ⟨?_, h.accounted⟩
  rw [work_setDispatcher]
  exact h.held.drop hsub fun _ _ => rfl

theorem mark (h : Inv s) (i : Fin n) (stored : Bool) : Inv (s.mark i stored) := by
  unfold System.mark
  cases hs : s.dispatchers i with
  | mk rows outcome =>
    cases rows with
    | nil => exact h
    | cons d rest =>
      cases outcome with
      | none => exact h
      | some err =>
        have hrows : (s.dispatchers i).rows = d :: rest := by rw [hs]
        have hsub : rest.Sublist (s.dispatchers i).rows := by
          rw [hrows]
          exact sublist_cons_self d rest
        cases stored with
        | false => exact h.drop hsub
        | true =>
          constructor
          · show Held _ _ _ (s.setDispatcher i ⟨rest, none⟩).work
            rw [work_setDispatcher]
            refine h.held.drop hsub fun c hc => leaseOf_congr ?_
            exact update_of_ne (h.held.key_ne_of_tail hrows hc) _ _
          · refine accounted_update h.accounted ?_
            exact (h.accounted d.key).map fun r _ hbudget => hbudget.mark err

theorem dispatch (h : Inv s) (i : Fin n) (err : Option String) :
    Inv (s.step cfg (.dispatch i err)) := by
  unfold System.step
  dsimp only
  split
  next d rest hs =>
    refine h.drop ?_
    rw [hs]
  next => exact h

theorem step (h : Inv s) {a : Action n} (ha : SweepSpares cfg s a) : Inv (s.step cfg a) := by
  cases a with
  | tick elapsed => exact ⟨h.held, h.accounted⟩
  | schedule k => exact h.schedule k
  | sweep i => exact h.sweep ha
  | claim i clock ks reply => exact h.claim i clock ks reply
  | dispatch i err => exact h.dispatch i err
  | mark i stored => exact h.mark i stored
  | crash i => exact h.drop (nil_sublist _)

theorem mark_settled (h : Inv s) {stored : Bool} {k : Key} {r : Row}
    (hr : s.rows k = some r) (hsettled : r.status ≠ .inProgress) :
    (s.mark i stored).rows k = some r := by
  unfold System.mark
  split
  next d rest err hs =>
    have hd : d ∈ s.work := mem_inHand.mpr ⟨i, by rw [hs]; exact mem_cons_self⟩
    have hne : k ≠ d.key := by
      rintro rfl
      exact h.not_mem_work hr hsettled (mem_map_of_mem hd)
    cases stored with
    | false => exact hr
    | true => exact (update_of_ne hne _ _).trans hr
  next => exact hr

end Inv

theorem claim_settled {i : Fin n} {clock : Int} {ks : List Key} {reply : Bool}
    (hr : s.rows k = some r) (hsettled : r.status ≠ .pending) :
    (s.claim cfg i clock ks reply).rows k = some r := by
  unfold System.claim
  cases (s.dispatchers i).rows with
  | cons d rest => exact hr
  | nil =>
    dsimp only
    by_cases hall : ks.length ≤ cfg.limit ∧ ks.Nodup ∧ ∀ k ∈ ks, s.due clock k = true
    · rw [if_pos hall]
      have hk : k ∉ ks := by
        intro hmem
        obtain ⟨r', hr', hpending, _⟩ := due_iff.mp (hall.2.2 k hmem)
        rw [hr, Option.some.injEq] at hr'
        exact hsettled (hr' ▸ hpending)
      exact (if_neg hk).trans hr
    · rw [if_neg hall]
      exact hr

theorem sweep_settled {i : Fin n} (hr : s.rows k = some r)
    (hsettled : r.status ≠ .inProgress) : (s.sweep cfg i).rows k = some r := by
  unfold System.sweep
  cases (s.dispatchers i).rows with
  | cons d rest => exact hr
  | nil =>
    show (s.rows k).map _ = some r
    rw [hr, Option.map_some, Row.revertStuckInProgress, if_neg fun hstuck => hsettled hstuck.1]

theorem Inv.keepsSettled (h : Inv s) (a : Action n) : KeepsSettled cfg s a := by
  intro k r hr hsettled
  have hopen : r.status ≠ .pending ∧ r.status ≠ .inProgress := by
    rcases hsettled with hstatus | hstatus <;> rw [hstatus] <;> decide
  cases a with
  | tick | crash => exact hr
  | schedule k' =>
    unfold System.step
    dsimp only
    cases hk' : s.rows k' with
    | some _ => exact hr
    | none =>
      have hne : k ≠ k' := by
        rintro rfl
        rw [hk'] at hr
        cases hr
      exact (update_of_ne hne _ _).trans hr
  | sweep i => exact sweep_settled hr hopen.2
  | claim i clock ks reply => exact claim_settled hr hopen.1
  | dispatch i err =>
    unfold System.step
    dsimp only
    split <;> exact hr
  | mark i stored => exact h.mark_settled hr hopen.2

/-- **At most three claims, and settled rows stay**, if every sweep spares the others. -/
theorem bounded_and_final (n : Nat) (cfg : Config) (now : Int) (acts : List (Action n))
    (h : Guarded (System.step cfg) (SweepSpares cfg) (System.empty now) acts) :
    (∀ k, (run (System.step cfg) (System.empty now) acts).claims k ≤ 3) ∧
      Guarded (System.step cfg) (KeepsSettled cfg) (System.empty now) acts := by
  have hstep : ∀ (s : System n) (a : Action n), Inv s → SweepSpares cfg s a →
      Inv (s.step cfg a) ∧ KeepsSettled cfg s a :=
    fun _ a hs ha => ⟨hs.step ha, hs.keepsSettled a⟩
  constructor
  · intro k
    exact (run_invariant (fun s a hs ha => (hstep s a hs ha).1) (Inv.empty now) h).claims_le k
  · exact guarded_of_invariant hstep (Inv.empty now) h

end Invariant

def defaults : Config := ⟨0, 0⟩

def reminder : Key := ⟨1, "scanner_freshness", 0⟩

def crashedOnce {n : Nat} (a b : Fin n) : List (Action n) :=
  [.claim a 0 [reminder] true, .crash a, .tick 360000000000, .sweep b]

def sweptAndDelivered {n : Nat} (a b : Fin n) : List (Action n) :=
  .schedule reminder :: crashedOnce a b ++
    [.claim b 0 [reminder] true, .dispatch b none, .mark b true]

def crashedThrice {n : Nat} (a b : Fin n) : List (Action n) :=
  .schedule reminder :: crashedOnce a b ++ crashedOnce a b ++ crashedOnce a b ++
    [.claim a 0 [reminder] true]

def overtaken {n : Nat} (a b : Fin n) : List (Action n) :=
  [.schedule reminder, .claim a 0 [reminder] true, .tick 360000000000, .sweep b,
   .claim b 0 [reminder] true, .dispatch b none, .mark b true]

def overtakenFails {n : Nat} (a b : Fin n) : List (Action n) :=
  overtaken a b ++ [.dispatch a (some "render: context deadline exceeded"), .mark a true]

theorem crashedOnce_spared :
    Guarded (System.step defaults) (SweepSpares defaults) (System.empty 0 : System 2)
      (.schedule reminder :: crashedOnce 0 1) := by
  refine ⟨trivial, trivial, trivial, trivial, ?_, trivial⟩
  intro k r hr _
  have hk : k = reminder := by
    by_contra hne
    have hnone : (run (System.step defaults) (System.empty 0 : System 2)
        [.schedule reminder, .claim 0 0 [reminder] true, .crash 0, .tick 360000000000]).rows k
          = none :=
      (if_neg (by simpa using hne)).trans (update_of_ne hne _ _)
    cases hnone.symm.trans hr
  subst hk
  have hrow : r = ⟨.inProgress, 1, none, 0, none⟩ := Option.some.inj (hr.symm.trans (by rfl))
  exact ⟨by rw [hrow]; decide, by decide +kernel⟩

theorem bounded_and_final_swept_and_delivered :
    Guarded (System.step defaults) (SweepSpares defaults) (System.empty 0)
        (sweptAndDelivered (0 : Fin 2) 1) ∧
      (∀ k, (run (System.step defaults) (System.empty 0)
        (sweptAndDelivered (0 : Fin 2) 1)).claims k ≤ 3) ∧
      Guarded (System.step defaults) (KeepsSettled defaults) (System.empty 0)
        (sweptAndDelivered (0 : Fin 2) 1) ∧
      (run (System.step defaults) (System.empty 0) (sweptAndDelivered (0 : Fin 2) 1)).rows
        reminder = some ⟨.delivered, 2, none, 360000000000, some 360000000000⟩ := by
  have hguard : Guarded (System.step defaults) (SweepSpares defaults) (System.empty 0)
      (sweptAndDelivered (0 : Fin 2) 1) :=
    guarded_append.mpr ⟨crashedOnce_spared, trivial, trivial, trivial, trivial⟩
  obtain ⟨hbounded, hfinal⟩ := bounded_and_final 2 defaults 0 (sweptAndDelivered 0 1) hguard
  exact ⟨hguard, hbounded, hfinal, by decide +kernel⟩

/-- **A row is claimed four times, and a delivered row is pending again.** -/
theorem claimed_four_times_and_reopened :
    (run (System.step defaults) (System.empty 0) (crashedThrice (0 : Fin 2) 1)).claims
        reminder = 4 ∧
      ((run (System.step defaults) (System.empty 0) (overtaken (0 : Fin 2) 1)).rows
        reminder).map Row.status = some .delivered ∧
      ((run (System.step defaults) (System.empty 0) (overtakenFails (0 : Fin 2) 1)).rows
        reminder).map Row.status = some .pending := by
  refine ⟨?_, ?_, ?_⟩ <;> decide +kernel

/-- **A notification is in one dispatcher's hands**, and is in progress as long as it is. -/
theorem dispatched_by_one (n : Nat) (cfg : Config) (now : Int) (acts : List (Action n))
    (h : Guarded (System.step cfg) (SweepSpares cfg) (System.empty now) acts) :
    let s := run (System.step cfg) (System.empty now) acts
    ∀ i, ∀ c ∈ (s.dispatchers i).rows,
      (∃ r, s.rows c.key = some r ∧ r.status = .inProgress) ∧
      ∀ j, ∀ c' ∈ (s.dispatchers j).rows, c.key = c'.key → i = j := by
  intro s i c hc
  have hinv : Inv s := run_invariant (fun _ _ hs ha => hs.step ha) (Inv.empty now) h
  exact ⟨hinv.inProgress (mem_inHand.mpr ⟨i, hc⟩), fun j c' hc' => hinv.held.apart hc hc'⟩

theorem reminder_dispatched_by_one :
    let s := run (System.step defaults) (System.empty 0)
      (.schedule reminder :: crashedOnce (0 : Fin 2) 1 ++ [.claim 1 0 [reminder] true])
    (∃ r, s.rows reminder = some r ∧ r.status = .inProgress) ∧
      ∀ j, ∀ c ∈ (s.dispatchers j).rows, reminder = c.key → 1 = j := by
  have hguard : Guarded (System.step defaults) (SweepSpares defaults) (System.empty 0)
      (.schedule reminder :: crashedOnce (0 : Fin 2) 1 ++ [.claim 1 0 [reminder] true]) :=
    guarded_append.mpr ⟨crashedOnce_spared, trivial, trivial⟩
  exact dispatched_by_one 2 defaults 0 _ hguard 1 ⟨reminder, _⟩ (.head _)

end OciJanus.Audit.ScheduledNotifications
