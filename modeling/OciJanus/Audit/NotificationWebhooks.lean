import OciJanus.Verified.Leases
import OciJanus.Verified.Run

/-!
# The sender of notification webhooks

`runTick` claims up to twenty due rows for a minute and posts them one after the other. The marks
are updates by id that ask for no status.
-/

namespace OciJanus.Audit.NotificationWebhooks

open Verified Verified.Leases Verified.Run Function List

inductive Status where
  | pending
  | delivered
  | failed
  deriving DecidableEq

structure Row where
  status : Status
  attempts : Nat
  nextAttemptAt : Int
  lastError : Option String
  responseStatus : Option Nat
  deliveredAt : Option Int
  deriving DecidableEq

def second : Int := 1000000000

def leaseTime : Int := 60 * second

def postTimeout : Int := 20 * second

def batch : Nat := 20

def maxAttempts : Nat := 5

def sched : List Int :=
  [5 * second, 30 * second, 5 * 60 * second, 30 * 60 * second, 2 * 60 * 60 * second]

def backoff (attempt : Nat) : Int :=
  if sched.length < attempt then sched.getLastD 0 else sched.getD (max attempt 1 - 1) 0

def nullString (s : String) : Option String := if s = "" then none else some s

def nullResponseStatus (code : Nat) : Option Nat := if code = 0 then none else some code

def Row.enqueued (now : Int) : Row := ⟨.pending, 0, now, none, none, none⟩

def Row.markWebhookDelivered (now : Int) (responseStatus : Nat) (r : Row) : Row :=
  { r with
    status := .delivered
    deliveredAt := some now
    responseStatus := some responseStatus
    lastError := none }

def Row.markWebhookFailed (attempts : Nat) (nextAttempt : Int) (failed : Bool)
    (responseStatus : Nat) (errMsg : String) (r : Row) : Row :=
  { r with
    attempts := attempts
    nextAttemptAt := nextAttempt
    status := if failed then .failed else .pending
    responseStatus := nullResponseStatus responseStatus
    lastError := nullString errMsg }

structure Claim where
  (id attempts : Nat)
  claimedAt : Int

def Claim.till (d : Claim) : Int := d.claimedAt + leaseTime

def Claim.fail (d : Claim) (clock : Int) (code : Nat) (sendErr : String) (r : Row) : Row :=
  let attempts := d.attempts + 1
  r.markWebhookFailed attempts (clock + backoff attempts) (maxAttempts ≤ attempts) code sendErr

structure Sender where
  rows : List Claim
  posting : Option Int

structure System (n : Nat) where
  now : Int
  rows : Nat → Option Row
  senders : Fin n → Sender

/-- Without `reply` or `stored` a statement is lost, or its answer is. -/
inductive Action (n : Nat) where
  | tick (elapsed : Nat)
  | enqueue (id : Nat)
  | claim (i : Fin n) (clock : Int) (ids : List Nat) (reply : Bool)
  | skip (i : Fin n) (clock : Int) (stored : Bool)
  | post (i : Fin n)
  | posted (i : Fin n) (code : Nat) (stored : Bool)
  | refused (i : Fin n) (code : Nat) (err : String) (clock : Int) (stored : Bool)
  | crash (i : Fin n)

namespace System

variable {n : Nat}

def empty (now : Int) : System n where
  now := now
  rows _ := none
  senders _ := ⟨[], none⟩

variable (s : System n)

def setSender (i : Fin n) (sender : Sender) : System n :=
  { s with senders := update s.senders i sender }

def due (clock : Int) (id : Nat) : Bool :=
  match s.rows id with
  | some r => r.status = .pending ∧ r.nextAttemptAt ≤ clock
  | none => false

def leaseRows (ids : List Nat) (id : Nat) : Option Row :=
  if id ∈ ids then (s.rows id).map fun r => { r with nextAttemptAt := s.now + leaseTime }
  else s.rows id

def claimOf (id : Nat) : Claim := ⟨id, ((s.rows id).map Row.attempts).getD 0, s.now⟩

def claim (i : Fin n) (clock : Int) (ids : List Nat) (reply : Bool) : System n :=
  match (s.senders i).rows with
  | _ :: _ => s
  | [] =>
    if ids.length ≤ batch ∧ ids.Nodup ∧ ∀ id ∈ ids, s.due clock id then
      { s.setSender i ⟨if reply then ids.map s.claimOf else [], none⟩ with
        rows := s.leaseRows ids }
    else s

def finish (i : Fin n) (f : Claim → Row → Row) (stored : Bool) : System n :=
  match (s.senders i).rows with
  | [] => s
  | d :: rest =>
    { s.setSender i ⟨rest, none⟩ with
      rows := if stored then update s.rows d.id ((s.rows d.id).map (f d)) else s.rows }

def step : Action n → System n
  | .tick elapsed => { s with now := s.now + elapsed }
  | .enqueue id =>
    match s.rows id with
    | some _ => s
    | none => { s with rows := update s.rows id (some (Row.enqueued s.now)) }
  | .claim i clock ids reply => s.claim i clock ids reply
  | .skip i clock stored =>
    match (s.senders i).posting with
    | some _ => s
    | none =>
      s.finish i (fun d => d.fail clock 0 "webhook transport not enabled or not configured") stored
  | .post i =>
    match s.senders i with
    | ⟨d :: rest, none⟩ => s.setSender i ⟨d :: rest, some s.now⟩
    | _ => s
  | .posted i code stored =>
    match (s.senders i).posting with
    | none => s
    | some _ => s.finish i (fun _ => Row.markWebhookDelivered s.now code) stored
  | .refused i code err clock stored =>
    match (s.senders i).posting with
    | none => s
    | some _ => s.finish i (fun d => d.fail clock code err) stored
  | .crash i => s.setSender i ⟨[], none⟩

def posts (i : Fin n) : Option Nat :=
  match s.senders i with
  | ⟨d :: _, some _⟩ => some d.id
  | _ => none

def work : List Claim := inHand fun i => (s.senders i).rows

end System

section Properties

variable {n : Nat} (s : System n) (a : Action n)

def PostsInTime : Prop :=
  ∀ i, ∀ t ∈ ((s.step a).senders i).posting, (s.step a).now ≤ t + postTimeout

def Immediate : Prop :=
  match a with
  | .tick elapsed =>
    elapsed = 0 ∨ ∀ i, (s.senders i).rows ≠ [] → (s.senders i).posting.isSome
  | _ => True

def Undisturbed : Prop :=
  match a with
  | .claim _ clock _ reply => clock = s.now ∧ reply = true
  | .skip _ clock stored => clock = s.now ∧ stored = true
  | .posted _ _ stored => stored = true
  | .refused _ _ _ clock stored => clock = s.now ∧ stored = true
  | _ => True

def Assumed : Prop := PostsInTime s a ∧ Immediate s a ∧ Undisturbed s a

def PostedOnce : Prop := ∀ i j id, s.posts i = some id → s.posts j = some id → i = j

def KeepsDelivered : Prop :=
  ∀ id r, s.rows id = some r → r.status = .delivered →
    ∃ r', (s.step a).rows id = some r' ∧ r'.status = .delivered

def InLease : Prop :=
  (match a with
    | .claim _ clock _ _ => clock ≤ s.now
    | _ => True) ∧
  ∀ d ∈ (s.step a).work, (s.step a).now < d.till

end Properties

section Invariant

variable {n : Nat} {s : System n}

def System.leaseOf (s : System n) : Nat → Option Int :=
  Leases.leaseOf (fun r => r.status = .pending) Row.nextAttemptAt s.rows

theorem due_iff {clock : Int} {id : Nat} :
    s.due clock id = true ↔ ∃ t, s.leaseOf id = some t ∧ t ≤ clock := by
  unfold System.due System.leaseOf Leases.leaseOf
  cases s.rows id with
  | none | some => simp

theorem work_setSender (i : Fin n) (sender : Sender) :
    (s.setSender i sender).work =
      inHand (update (fun j => (s.senders j).rows) i sender.rows) := by
  show inHand (fun j => (update s.senders i sender j).rows) = _
  exact congrArg inHand (funext fun j => apply_update (fun _ => Sender.rows) _ i sender j)

theorem finishes {P : System n → Prop} (hsame : P s)
    (hfinish : ∀ i f stored, P (s.finish i f stored)) :
    (∀ i clock stored, P (s.step (.skip i clock stored))) ∧
      (∀ i code stored, P (s.step (.posted i code stored))) ∧
      ∀ i code err clock stored, P (s.step (.refused i code err clock stored)) := by
  unfold System.step
  dsimp only
  refine ⟨fun i clock stored => ?_, fun i code stored => ?_, fun i code err clock stored => ?_⟩
  · cases (s.senders i).posting with
    | some t => exact hsame
    | none => exact hfinish i _ stored
  · cases (s.senders i).posting with
    | none => exact hsame
    | some t => exact hfinish i _ stored
  · cases (s.senders i).posting with
    | none => exact hsame
    | some t => exact hfinish i _ stored

structure Inv (s : System n) : Prop where
  held : Held Claim.id Claim.till s.leaseOf s.work
  inTime : ∀ d ∈ s.work, s.now < d.till

namespace Inv

theorem empty (now : Int) : Inv (System.empty now : System n) where
  held := by
    have hwork : (System.empty now : System n).work = [] := by
      simp [System.work, inHand, System.empty]
    rw [hwork]
    exact Held.nil
  inTime d hd := by
    obtain ⟨i, hi⟩ := mem_inHand.mp hd
    cases hi

variable {i : Fin n}

theorem pending (h : Inv s) {d : Claim} (hd : d ∈ (s.senders i).rows) :
    ∃ r, s.rows d.id = some r ∧ r.status = .pending := by
  obtain ⟨r, hr, hpending, _⟩ := leaseOf_eq_some.mp (h.held.leased d (mem_inHand.mpr ⟨i, hd⟩))
  exact ⟨r, hr, hpending⟩

theorem postedOnce (h : Inv s) : PostedOnce s := by
  have hfirst : ∀ i id, s.posts i = some id → ∃ d ∈ (s.senders i).rows, d.id = id := by
    intro i id hi
    unfold System.posts at hi
    cases hs : s.senders i with
    | mk rows posting =>
      rw [hs] at hi
      cases rows with
      | nil => cases hi
      | cons d rest =>
        cases posting with
        | none => cases hi
        | some t =>
          cases hi
          exact ⟨d, mem_cons_self, rfl⟩
  intro i j id hi hj
  obtain ⟨d, hd, hdi⟩ := hfirst i id hi
  obtain ⟨d', hd', hdj⟩ := hfirst j id hj
  exact h.held.apart hd hd' (hdi.trans hdj.symm)

theorem claim (h : Inv s) {clock : Int} {ids : List Nat} {reply : Bool} (hclock : clock ≤ s.now)
    (htime : ∀ d ∈ (s.claim i clock ids reply).work, (s.claim i clock ids reply).now < d.till) :
    Inv (s.claim i clock ids reply) := by
  refine ⟨?_, htime⟩
  unfold System.claim
  cases hrows : (s.senders i).rows with
  | cons d rest => exact h.held
  | nil =>
    dsimp only
    by_cases hall : ids.length ≤ batch ∧ ids.Nodup ∧ ∀ id ∈ ids, s.due clock id = true
    · rw [if_pos hall]
      obtain ⟨_, hnodup, hdue⟩ := hall
      -- What is due on the sender's clock is past its lease on the database's.
      have hfree : ∀ id ∈ ids, id ∉ s.work.map Claim.id := by
        intro id hid
        obtain ⟨t, ht, hle⟩ := due_iff.mp (hdue id hid)
        exact h.held.free h.inTime ht (hle.trans hclock)
      have hids : ∀ id ∈ ids, ∃ t, s.leaseOf id = some t := by
        intro id hid
        obtain ⟨t, ht, _⟩ := due_iff.mp (hdue id hid)
        exact ⟨t, ht⟩
      have hlease := leaseOf_extend (fun _ => rfl : ∀ id, s.leaseRows ids id = _)
        (fun _ hpending => hpending) (fun _ => rfl) hids
      show Held _ _ _ (s.setSender i ⟨if reply then ids.map s.claimOf else [], none⟩).work
      rw [work_setSender]
      refine h.held.takeAll (t := s.now + leaseTime) reply hrows (fun _ => rfl) (fun _ => rfl)
        hnodup hfree ?_ ?_
      · exact fun id hid => (hlease id).trans (if_neg hid)
      · exact fun id hid => (hlease id).trans (if_pos hid)
    · rw [if_neg hall]
      exact h.held

theorem finish (h : Inv s) (i : Fin n) (f : Claim → Row → Row) (stored : Bool) :
    Inv (s.finish i f stored) := by
  unfold System.finish
  cases hrows : (s.senders i).rows with
  | nil => exact h
  | cons d rest =>
    have hsub : rest.Sublist (s.senders i).rows := by
      rw [hrows]
      exact sublist_cons_self d rest
    constructor
    · show Held _ _ _ (s.setSender i ⟨rest, none⟩).work
      rw [work_setSender]
      refine h.held.drop hsub fun c hc => leaseOf_congr ?_
      have hne := h.held.key_ne_of_tail hrows hc
      cases stored with
      | false => rfl
      | true => exact update_of_ne hne _ _
    · intro c hc
      have hc' : c ∈ (s.setSender i ⟨rest, none⟩).work := hc
      rw [work_setSender] at hc'
      exact h.inTime c (mem_of_mem_drop hsub hc')

theorem crash (h : Inv s) (i : Fin n) : Inv (s.setSender i ⟨[], none⟩) := by
  have hsub : [].Sublist (s.senders i).rows := nil_sublist _
  constructor
  · rw [work_setSender]
    exact h.held.drop hsub fun _ _ => rfl
  · intro c hc
    rw [work_setSender] at hc
    exact h.inTime c (mem_of_mem_drop hsub hc)

theorem post (h : Inv s) (i : Fin n) : Inv (s.step (.post i)) := by
  unfold System.step
  dsimp only
  cases hs : s.senders i with
  | mk rows posting =>
    have hsame : (s.setSender i ⟨rows, some s.now⟩).work = s.work := by
      rw [work_setSender]
      refine congrArg inHand (update_eq_self_iff.mpr ?_)
      rw [hs]
    cases rows with
    | nil => exact h
    | cons d rest =>
      cases posting with
      | some t => exact h
      | none =>
        constructor
        · show Held _ _ _ (s.setSender i ⟨d :: rest, some s.now⟩).work
          rw [hsame]
          exact h.held
        · intro c hc
          have hc' : c ∈ (s.setSender i ⟨d :: rest, some s.now⟩).work := hc
          rw [hsame] at hc'
          exact h.inTime c hc'

theorem enqueue (h : Inv s) (id : Nat) : Inv (s.step (.enqueue id)) := by
  unfold System.step
  dsimp only
  cases hid : s.rows id with
  | some r => exact h
  | none =>
    refine ⟨h.held.congr fun d hd => leaseOf_congr ?_, h.inTime⟩
    have hne : d.id ≠ id := by
      intro heq
      obtain ⟨r, hr, _⟩ := leaseOf_eq_some.mp (h.held.leased d hd)
      rw [heq, hid] at hr
      cases hr
    exact update_of_ne hne _ _

theorem step (h : Inv s) {a : Action n} (ha : InLease s a) : Inv (s.step a) := by
  obtain ⟨hskip, hposted, hrefused⟩ := finishes h h.finish
  cases a with
  | tick elapsed => exact ⟨h.held, ha.2⟩
  | enqueue id => exact h.enqueue id
  | claim i clock ids reply => exact h.claim ha.1 ha.2
  | skip i clock stored => exact hskip i clock stored
  | post i => exact h.post i
  | posted i code stored => exact hposted i code stored
  | refused i code err clock stored => exact hrefused i code err clock stored
  | crash i => exact h.crash i

theorem finish_delivered (h : Inv s) {f : Claim → Row → Row} {stored : Bool} {id : Nat}
    {r : Row} (hr : s.rows id = some r) (hdelivered : r.status = .delivered) :
    (s.finish i f stored).rows id = some r := by
  unfold System.finish
  cases hrows : (s.senders i).rows with
  | nil => exact hr
  | cons d rest =>
    have hne : id ≠ d.id := by
      intro heq
      have hd : d ∈ (s.senders i).rows := by
        rw [hrows]
        exact mem_cons_self
      obtain ⟨r', hr', hpending⟩ := h.pending hd
      rw [← heq, hr, Option.some.injEq] at hr'
      rw [hr', hpending] at hdelivered
      cases hdelivered
    cases stored with
    | false => exact hr
    | true => exact (update_of_ne hne _ _).trans hr

theorem claim_delivered {clock : Int} {ids : List Nat} {reply : Bool} {id : Nat}
    {r : Row} (hr : s.rows id = some r) (hdelivered : r.status = .delivered) :
    (s.claim i clock ids reply).rows id = some r := by
  unfold System.claim
  cases (s.senders i).rows with
  | cons d rest => exact hr
  | nil =>
    dsimp only
    by_cases hall : ids.length ≤ batch ∧ ids.Nodup ∧ ∀ id ∈ ids, s.due clock id = true
    · rw [if_pos hall]
      have hid : id ∉ ids := by
        intro hmem
        have hdue := hall.2.2 id hmem
        unfold System.due at hdue
        rw [hr] at hdue
        simp [hdelivered] at hdue
      exact (if_neg hid).trans hr
    · rw [if_neg hall]
      exact hr

theorem keepsDelivered (h : Inv s) (a : Action n) : KeepsDelivered s a := by
  intro id r hr hdelivered
  refine ⟨r, ?_, hdelivered⟩
  obtain ⟨hskip, hposted, hrefused⟩ := finishes (P := fun s' => s'.rows id = some r) hr
    fun _ _ _ => h.finish_delivered hr hdelivered
  cases a with
  | tick | crash => exact hr
  | enqueue k =>
    unfold System.step
    dsimp only
    cases hk : s.rows k with
    | some _ => exact hr
    | none =>
      have hne : id ≠ k := by
        rintro rfl
        rw [hk] at hr
        cases hr
      exact (update_of_ne hne _ _).trans hr
  | claim i clock ids reply => exact claim_delivered hr hdelivered
  | skip i clock stored => exact hskip i clock stored
  | post i =>
    unfold System.step
    dsimp only
    split <;> exact hr
  | posted i code stored => exact hposted i code stored
  | refused i code err clock stored => exact hrefused i code err clock stored

end Inv

/-- **No row is posted twice at once**, if no row is in hand after its lease. -/
theorem posts_not_duplicated (n : Nat) (now : Int) (acts : List (Action n))
    (h : Guarded System.step InLease (System.empty now) acts) :
    PostedOnce (run System.step (System.empty now) acts) ∧
      Guarded System.step KeepsDelivered (System.empty now) acts := by
  have hstep : ∀ (s : System n) (a : Action n), Inv s → InLease s a →
      Inv (s.step a) ∧ KeepsDelivered s a :=
    fun _ a hs ha => ⟨hs.step ha, hs.keepsDelivered a⟩
  constructor
  · exact (run_invariant (fun s a hs ha => (hstep s a hs ha).1) (Inv.empty now) h).postedOnce
  · exact guarded_of_invariant hstep (Inv.empty now) h

end Invariant

instance {n : Nat} (s : System n) (a : Action n) : Decidable (InLease s a) := by
  unfold InLease
  cases a <;> infer_instance

instance {n : Nat} (s : System n) (a : Action n) : Decidable (Assumed s a) := by
  unfold Assumed PostsInTime Immediate Undisturbed
  cases a <;> infer_instance

def refusedOnce {n : Nat} (a b : Fin n) : List (Action n) :=
  [.enqueue 1, .enqueue 2, .claim a 0 [1, 2] true, .claim b 0 [] true, .post a,
   .tick 2000000000, .refused a 503 "endpoint returned status 503" 2000000000 true, .post a,
   .tick 6000000000, .claim b 8000000000 [1] true, .post b, .posted b 200 true,
   .posted a 200 true]

theorem posts_not_duplicated_refused_once :
    Guarded System.step InLease (System.empty 0) (refusedOnce (0 : Fin 2) 1) ∧
      PostedOnce (run System.step (System.empty 0) (refusedOnce (0 : Fin 2) 1)) ∧
      Guarded System.step KeepsDelivered (System.empty 0) (refusedOnce (0 : Fin 2) 1) ∧
      (run System.step (System.empty 0) (refusedOnce (0 : Fin 2) 1)).rows 1 =
        some ⟨.delivered, 1, 68000000000, none, some 200, some 8000000000⟩ := by
  have hguard : Guarded System.step InLease (System.empty 0) (refusedOnce (0 : Fin 2) 1) := by
    decide +kernel
  obtain ⟨honce, hkeeps⟩ := posts_not_duplicated 2 0 (refusedOnce 0 1) hguard
  exact ⟨hguard, honce, hkeeps, by decide +kernel⟩

def slowBatch {n : Nat} (a b : Fin n) : List (Action n) :=
  [.enqueue 1, .enqueue 2, .enqueue 3, .enqueue 4, .claim a 0 [1, 2, 3, 4] true,
   .post a, .tick 19000000000, .posted a 200 true,
   .post a, .tick 19000000000, .posted a 200 true,
   .post a, .tick 19000000000, .posted a 200 true,
   .post a, .tick 3000000000, .claim b 60000000000 [4] true, .post b]

def slowBatchDelivered {n : Nat} (a b : Fin n) : List (Action n) :=
  slowBatch a b ++ [.tick 1000000000, .posted b 200 true]

def slowBatchReturned {n : Nat} (a b : Fin n) : List (Action n) :=
  slowBatchDelivered a b ++
    [.tick 16000000000, .refused a 0 "context deadline exceeded" 77000000000 true]

theorem row_posted_twice :
    Guarded System.step Assumed (System.empty 0) (slowBatchReturned (0 : Fin 2) 1) ∧
      (run System.step (System.empty 0) (slowBatch (0 : Fin 2) 1)).posts 0 = some 4 ∧
      (run System.step (System.empty 0) (slowBatch (0 : Fin 2) 1)).posts 1 = some 4 ∧
      ((run System.step (System.empty 0) (slowBatchDelivered (0 : Fin 2) 1)).rows 4).map
        Row.status = some .delivered ∧
      ((run System.step (System.empty 0) (slowBatchReturned (0 : Fin 2) 1)).rows 4).map
        Row.status = some .pending := by
  refine ⟨?_, ?_, ?_, ?_, ?_⟩ <;> decide +kernel

end OciJanus.Audit.NotificationWebhooks
