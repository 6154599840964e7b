import OciJanus.Verified.Leases
import OciJanus.Verified.Run
import Mathlib.Data.Fintype.Basic

/-!
# The delivery queue of the webhook service

After `PollDueDeliveries` only `next_attempt_at` keeps a row from the other workers. Of Postgres:
`now()` is the start of the transaction, an uncommitted update is seen by nobody, and `FOR UPDATE
SKIP LOCKED` returns due rows that no other transaction has locked.
-/

namespace OciJanus.Webhook.Deliveries

open Verified Verified.Leases Verified.Run Function List

inductive Status where
  | pending
  | delivered
  | dead
  deriving DecidableEq

structure Row where
  status : Status
  attempts : Nat
  nextAttemptAt : Int
  lastError : String
  deriving DecidableEq

def second : Int := 1000000000

def leaseTime : Int := 5 * 60 * second

def retryDelays : List Int :=
  [5 * second, 30 * second, 5 * 60 * second, 30 * 60 * second, 2 * 60 * 60 * second]

def nextRetryAt (now : Int) (attempts : Nat) : Option Int :=
  (retryDelays[attempts]?).map fun delay => now + delay

def Row.markDelivered (r : Row) : Row := { r with status := .delivered }

/-- The zero `time.Time`, which a dead row keeps, from 1970 on. -/
def zeroTime : Int := -62135596800 * second

def Row.markFailed (r : Row) (lastError : String) (nextAttemptAt : Option Int) : Row :=
  { status := if nextAttemptAt.isSome then .pending else .dead
    attempts := r.attempts + 1
    nextAttemptAt := nextAttemptAt.getD zeroTime
    lastError := lastError }

structure Picked where
  (id attempts : Nat)

inductive Poll where
  | idle
  | begun (start : Int)
  | selected (start : Int) (picked : List Picked)
  | leased (start : Int) (picked : List Picked)

structure Attempt where
  (id attempts : Nat)
  start : Int

def Attempt.till (a : Attempt) : Int := a.start + leaseTime

/-- A poll in each replica, the attempts under way, and how many have failed. -/
structure System (n : Nat) where
  now : Int
  rows : Nat → Option Row
  polls : Fin n → Poll
  active : List Attempt
  failures : Nat → Nat

/-- A statement of poll `p` or of attempt `j`. -/
inductive Action (n : Nat) where
  | tick (elapsed : Nat)
  | create (id : Nat)
  | begin (p : Fin n)
  | select (p : Fin n) (ids : List Nat)
  | lease (p : Fin n)
  | commit (p : Fin n) (reply : Bool)
  | rollback (p : Fin n)
  | abandon (j : Nat)
  | markDelivered (j : Nat)
  | markFailed (j : Nat) (workerNow : Int) (err : String)

def Poll.ids : Poll → List Nat
  | .selected _ picked => picked.map (·.id)
  | .leased _ picked => picked.map (·.id)
  | _ => []

def Poll.start? : Poll → Option Int
  | .idle => none
  | .begun start => some start
  | .selected start _ => some start
  | .leased start _ => some start

def pollLimit : Nat := 50

namespace System

variable {n : Nat}

def empty (now : Int) : System n where
  now := now
  rows _ := none
  polls _ := .idle
  active := []
  failures _ := 0

variable (s : System n)

def setPoll (p : Fin n) (q : Poll) : System n := { s with polls := update s.polls p q }

def setRow (id : Nat) (r : Row) : System n :=
  { s with rows := update s.rows id (some r) }

def locked (id : Nat) : Bool := decide (∃ p, id ∈ (s.polls p).ids)

def due (start : Int) (id : Nat) : Bool :=
  match s.rows id with
  | some r => r.status = .pending ∧ r.nextAttemptAt ≤ start
  | none => false

def select (p : Fin n) (ids : List Nat) : System n :=
  match s.polls p with
  | .begun start =>
    if ids.length ≤ pollLimit ∧ ids.Nodup ∧ ∀ id ∈ ids, s.due start id ∧ s.locked id = false then
      s.setPoll p (.selected start (ids.map fun id => ⟨id, ((s.rows id).map Row.attempts).getD 0⟩))
    else s
  | _ => s

def leaseRows (start : Int) (ids : List Nat) (id : Nat) : Option Row :=
  if id ∈ ids then (s.rows id).map fun r => { r with nextAttemptAt := start + leaseTime }
  else s.rows id

def commit (p : Fin n) (reply : Bool) : System n :=
  match s.polls p with
  | .leased start picked =>
    { s.setPoll p .idle with
      rows := s.leaseRows start (picked.map (·.id))
      active := s.active ++ if reply then picked.map fun x => ⟨x.id, x.attempts, start⟩ else [] }
  | _ => s

def mark (j : Nat) (f : Attempt → Row → Row) (failed : Bool) : System n :=
  match s.active[j]? with
  | none => s
  | some a =>
    match s.rows a.id with
    | none => s
    | some r =>
      if s.locked a.id then s
      else
        { s.setRow a.id (f a r) with
          active := s.active.eraseIdx j
          failures := if failed then update s.failures a.id (s.failures a.id + 1)
            else s.failures }

def step : Action n → System n
  | .tick elapsed => { s with now := s.now + elapsed }
  | .create id =>
    match s.rows id with
    | some _ => s
    | none => s.setRow id ⟨.pending, 0, s.now, ""⟩
  | .begin p =>
    match s.polls p with
    | .idle => s.setPoll p (.begun s.now)
    | _ => s
  | .select p ids => s.select p ids
  | .lease p =>
    match s.polls p with
    | .selected start picked => s.setPoll p (.leased start picked)
    | _ => s
  | .commit p reply => s.commit p reply
  | .rollback p => s.setPoll p .idle
  | .abandon j => { s with active := s.active.eraseIdx j }
  | .markDelivered j => s.mark j (fun _ r => r.markDelivered) false
  | .markFailed j workerNow err =>
    s.mark j (fun a r => r.markFailed err (nextRetryAt workerNow (a.attempts + 1))) true

end System

section Properties

variable {n : Nat}

def InTime (s : System n) (a : Action n) : Prop :=
  ∀ x ∈ (s.step a).active, (s.step a).now < x.till

def Sound (s : System n) : Prop :=
  (s.active.map Attempt.id).Nodup ∧
  (∀ x ∈ s.active, ∃ r, s.rows x.id = some r ∧ r.status = .pending) ∧
  ∀ id r, s.rows id = some r → r.attempts = s.failures id

def KeepsSettled (s : System n) (a : Action n) : Prop :=
  ∀ id r, s.rows id = some r → ∃ r', (s.step a).rows id = some r' ∧ (r.status ≠ .pending → r' = r)

end Properties

section Invariant

variable {n : Nat} {s : System n}

def System.leaseOf (s : System n) : Nat → Option Int :=
  Leases.leaseOf (fun r => r.status = .pending) Row.nextAttemptAt s.rows

structure Inv (s : System n) : Prop where
  held : Held Attempt.id Attempt.till s.leaseOf s.active
  inTime : ∀ x ∈ s.active, s.now < x.till
  started : ∀ p t, (s.polls p).start? = some t → t ≤ s.now
  distinct : ∀ p, (s.polls p).ids.Nodup
  picked : ∀ p id, id ∈ (s.polls p).ids →
    ∃ t d, (s.polls p).start? = some t ∧ s.leaseOf id = some d ∧ d ≤ t
  disjoint : ∀ p q id, id ∈ (s.polls p).ids → id ∈ (s.polls q).ids → p = q
  counter : ∀ id r, s.rows id = some r → r.attempts = s.failures id
  unborn : ∀ id, s.rows id = none → s.failures id = 0

namespace Inv

theorem empty (now : Int) : Inv (System.empty now : System n) where
  held := Held.nil
  inTime _ h := by cases h
  started _ _ h := by cases h
  distinct _ := nodup_nil
  picked _ _ h := by cases h
  disjoint _ _ _ h := by cases h
  counter _ _ h := by cases h
  unborn _ _ := rfl

variable {p : Fin n} {id : Nat}

theorem not_active (h : Inv s) (hid : id ∈ (s.polls p).ids) : id ∉ s.active.map Attempt.id := by
  obtain ⟨t, d, ht, hd, hle⟩ := h.picked p id hid
  exact h.held.free h.inTime hd (hle.trans (h.started p t ht))

theorem pending (h : Inv s) {x : Attempt} (hx : x ∈ s.active) :
    ∃ r, s.rows x.id = some r ∧ r.status = .pending := by
  obtain ⟨r, hr, hpending, _⟩ := leaseOf_eq_some.mp (h.held.leased x hx)
  exact ⟨r, hr, hpending⟩

theorem sound (h : Inv s) : Sound s :=
  ⟨h.held.nodup, fun _ hx => h.pending hx, h.counter⟩

theorem of_polls {s' : System n} (h : Inv s) (hpolls : s'.polls = s.polls)
    (hnow : s.now ≤ s'.now) (hheld : Held Attempt.id Attempt.till s'.leaseOf s'.active)
    (htime : ∀ x ∈ s'.active, s'.now < x.till)
    (hlocked : ∀ p id, id ∈ (s.polls p).ids → s'.rows id = s.rows id)
    (hcounter : ∀ id r, s'.rows id = some r → r.attempts = s'.failures id)
    (hunborn : ∀ id, s'.rows id = none → s'.failures id = 0) : Inv s' where
  held := hheld
  inTime := htime
  started p t ht := by
    rw [hpolls] at ht
    exact (h.started p t ht).trans hnow
  distinct := by rw [hpolls]; exact h.distinct
  picked p id hid := by
    rw [hpolls] at hid ⊢
    have hsame : s'.leaseOf id = s.leaseOf id := leaseOf_congr (hlocked p id hid)
    rw [hsame]
    exact h.picked p id hid
  disjoint := by rw [hpolls]; exact h.disjoint
  counter := hcounter
  unborn := hunborn

theorem setPoll (h : Inv s) {q : Poll} (hstart : ∀ t, q.start? = some t → t ≤ s.now)
    (hdistinct : q.ids.Nodup)
    (hpicked : ∀ id ∈ q.ids, ∃ t d, q.start? = some t ∧ s.leaseOf id = some d ∧ d ≤ t)
    (hfree : ∀ id ∈ q.ids, ∀ p', id ∈ (s.polls p').ids → p' = p) : Inv (s.setPoll p q) := by
  have hpoll : ∀ p', (s.setPoll p q).polls p' = q ∧ p' = p ∨
      (s.setPoll p q).polls p' = s.polls p' ∧ p' ≠ p := by
    intro p'
    by_cases heq : p' = p
    · exact Or.inl ⟨by simp [System.setPoll, heq], heq⟩
    · exact Or.inr ⟨by simp [System.setPoll, heq], heq⟩
  constructor
  · exact h.held
  · exact h.inTime
  · intro p' t ht
    rcases hpoll p' with ⟨hq, _⟩ | ⟨hq, _⟩
    · rw [hq] at ht
      exact hstart t ht
    · rw [hq] at ht
      exact h.started p' t ht
  · intro p'
    rcases hpoll p' with ⟨hq, _⟩ | ⟨hq, _⟩
    · rw [hq]
      exact hdistinct
    · rw [hq]
      exact h.distinct p'
  · intro p' id hid
    rcases hpoll p' with ⟨hq, _⟩ | ⟨hq, _⟩
    · rw [hq] at hid ⊢
      exact hpicked id hid
    · rw [hq] at hid ⊢
      exact h.picked p' id hid
  · intro p₁ p₂ id h₁ h₂
    rcases hpoll p₁ with ⟨hq₁, rfl⟩ | ⟨hq₁, _⟩
    · rcases hpoll p₂ with ⟨_, rfl⟩ | ⟨hq₂, _⟩
      · rfl
      · rw [hq₁] at h₁
        rw [hq₂] at h₂
        exact (hfree id h₁ p₂ h₂).symm
    · rcases hpoll p₂ with ⟨hq₂, rfl⟩ | ⟨hq₂, _⟩
      · rw [hq₁] at h₁
        rw [hq₂] at h₂
        exact hfree id h₂ p₁ h₁
      · rw [hq₁] at h₁
        rw [hq₂] at h₂
        exact h.disjoint p₁ p₂ id h₁ h₂
  · exact h.counter
  · exact h.unborn

theorem create (h : Inv s) (id : Nat) : Inv (s.step (.create id)) := by
  unfold System.step
  dsimp only
  cases hid : s.rows id with
  | some r => exact h
  | none =>
    have hne : ∀ k d, s.leaseOf k = some d → k ≠ id := by
      intro k d hk heq
      obtain ⟨r, hr, _⟩ := leaseOf_eq_some.mp hk
      rw [heq, hid] at hr
      cases hr
    have hrows : ∀ k, k ≠ id → (s.setRow id ⟨.pending, 0, s.now, ""⟩).rows k = s.rows k := by
      intro k hk
      exact update_of_ne hk _ _
    refine h.of_polls rfl (Int.le_refl _) ?_ h.inTime ?_ ?_ ?_
    · exact h.held.congr fun c hc => leaseOf_congr (hrows c.id (hne c.id _ (h.held.leased c hc)))
    · intro p k hk
      obtain ⟨_, d, _, hd, _⟩ := h.picked p k hk
      exact hrows k (hne k d hd)
    · intro k r hr
      show r.attempts = s.failures k
      by_cases heq : k = id
      · have hr' : update s.rows id _ k = some r := hr
        rw [heq, update_self, Option.some.injEq] at hr'
        rw [← hr', heq, h.unborn id hid]
      · rw [hrows k heq] at hr
        exact h.counter k r hr
    · intro k hk
      show s.failures k = 0
      by_cases heq : k = id
      · rw [heq]
        exact h.unborn id hid
      · rw [hrows k heq] at hk
        exact h.unborn k hk

theorem begin (h : Inv s) (p : Fin n) : Inv (s.step (.begin p)) := by
  unfold System.step
  dsimp only
  cases hp : s.polls p with
  | idle =>
    refine h.setPoll ?_ nodup_nil (fun _ hid => by cases hid) (fun _ hid => by cases hid)
    intro t ht
    cases ht
    exact Int.le_refl _
  | begun | selected | leased => exact h

theorem select (h : Inv s) (p : Fin n) (ids : List Nat) : Inv (s.select p ids) := by
  unfold System.select
  cases hp : s.polls p with
  | idle | selected | leased => exact h
  | begun start =>
    dsimp only
    split_ifs with hids
    · obtain ⟨_, hnodup, hdue⟩ := hids
      have hsame : (Poll.selected start
          (ids.map fun id => ⟨id, ((s.rows id).map Row.attempts).getD 0⟩)).ids = ids := by
        show (ids.map _).map _ = ids
        rw [map_map]
        exact map_id ids
      refine h.setPoll ?_ (by rw [hsame]; exact hnodup) ?_ ?_
      · intro t ht
        exact h.started p t (by rw [hp]; exact ht)
      · rw [hsame]
        intro id hid
        obtain ⟨hdue, _⟩ := hdue id hid
        unfold System.due at hdue
        cases hr : s.rows id with
        | none => simp [hr] at hdue
        | some r =>
          simp only [hr, decide_eq_true_eq] at hdue
          exact ⟨start, r.nextAttemptAt, rfl, leaseOf_eq_some.mpr ⟨r, hr, hdue.1, rfl⟩, hdue.2⟩
      · rw [hsame]
        intro id hid p' hp'
        have hunlocked := (hdue id hid).2
        unfold System.locked at hunlocked
        rw [decide_eq_false_iff_not] at hunlocked
        exact absurd ⟨p', hp'⟩ hunlocked
    · exact h

theorem lease (h : Inv s) (p : Fin n) : Inv (s.step (.lease p)) := by
  unfold System.step
  dsimp only
  cases hp : s.polls p with
  | idle | begun | leased => exact h
  | selected start picked =>
    have hids : (Poll.leased start picked).ids = (s.polls p).ids := by rw [hp]; rfl
    have hstart : (Poll.leased start picked).start? = (s.polls p).start? := by rw [hp]; rfl
    refine h.setPoll ?_ ?_ ?_ ?_
    · rw [hstart]
      exact h.started p
    · rw [hids]
      exact h.distinct p
    · rw [hids, hstart]
      exact h.picked p
    · rw [hids]
      intro id hid p' hp'
      exact h.disjoint p' p id hp' hid

theorem rollback (h : Inv s) (p : Fin n) : Inv (s.setPoll p .idle) :=
  h.setPoll (fun _ ht => by cases ht) nodup_nil (fun _ hid => by cases hid)
    (fun _ hid => by cases hid)

theorem leaseRows_of_not_mem {start : Int} {ids : List Nat} (hid : id ∉ ids) :
    s.leaseRows start ids id = s.rows id := if_neg hid

theorem commit (h : Inv s) {reply : Bool}
    (htime : ∀ x ∈ (s.commit p reply).active, (s.commit p reply).now < x.till) :
    Inv (s.commit p reply) := by
  unfold System.commit at htime ⊢
  cases hp : s.polls p with
  | idle | begun | selected => exact h
  | leased start picked =>
    simp only [hp] at htime
    have h' := h.rollback p
    have hids : (s.polls p).ids = picked.map (·.id) := by rw [hp]; rfl
    -- Another transaction has none of these rows.
    have hother : ∀ p' id, id ∈ ((s.setPoll p .idle).polls p').ids → id ∉ picked.map (·.id) := by
      intro p' id hid hmem
      by_cases heq : p' = p
      · simp [System.setPoll, heq, Poll.ids] at hid
      · have hid' : id ∈ (s.polls p').ids := by simpa [System.setPoll, heq] using hid
        exact heq (h.disjoint p' p id hid' (by rw [hids]; exact hmem))
    -- An attempt under way has a lease past the start of this transaction.
    have hfree : ∀ id ∈ picked.map (·.id), id ∉ s.active.map Attempt.id := by
      intro id hid
      exact h.not_active (by rw [hids]; exact hid)
    have hlease := leaseOf_extend
      (fun _ => rfl : ∀ id, s.leaseRows start (picked.map (·.id)) id = _)
      (fun _ hpending => hpending) (fun _ => rfl) fun id hid => by
        obtain ⟨_, d, _, hd, _⟩ := h.picked p id (by rw [hids]; exact hid)
        exact ⟨d, hd⟩
    have hold := fun (c : Attempt) (hc : c ∈ s.active) => (hlease c.id).trans
      (if_neg fun hmem => hfree c.id hmem (mem_map_of_mem hc))
    constructor
    · cases reply with
      | false =>
        show Held _ _ _ (s.active ++ [])
        rw [append_nil]
        exact h.held.congr hold
      | true =>
        refine h.held.claim ?_ ?_ hold ?_
        · have hnodup := h.distinct p
          rw [hids] at hnodup
          rw [if_pos rfl, map_map]
          exact hnodup
        · intro c hc
          rw [if_pos rfl] at hc
          obtain ⟨x, hx, rfl⟩ := mem_map.mp hc
          exact hfree x.id (mem_map_of_mem hx)
        · intro c hc
          rw [if_pos rfl] at hc
          obtain ⟨x, hx, rfl⟩ := mem_map.mp hc
          exact (hlease x.id).trans (if_pos (mem_map_of_mem hx))
    · exact htime
    · exact h'.started
    · exact h'.distinct
    · intro p' id hid
      obtain ⟨t, d, ht, hd, hle⟩ := h'.picked p' id hid
      refine ⟨t, d, ht, ?_, hle⟩
      rw [← hd]
      exact leaseOf_congr (leaseRows_of_not_mem (hother p' id hid))
    · exact h'.disjoint
    · intro id r hr
      show r.attempts = s.failures id
      have hr' : s.leaseRows start (picked.map (·.id)) id = some r := hr
      unfold System.leaseRows at hr'
      split_ifs at hr'
      · obtain ⟨r₀, hr₀, rfl⟩ := Option.map_eq_some_iff.mp hr'
        exact h.counter id r₀ hr₀
      · exact h.counter id r hr'
    · intro id hid
      show s.failures id = 0
      have hid' : s.leaseRows start (picked.map (·.id)) id = none := hid
      unfold System.leaseRows at hid'
      split_ifs at hid'
      · exact h.unborn id (Option.map_eq_none_iff.mp hid')
      · exact h.unborn id hid'

theorem abandon (h : Inv s) (j : Nat) : Inv (s.step (.abandon j)) := by
  refine h.of_polls rfl (Int.le_refl _) (h.held.release j fun _ _ => rfl) ?_ (fun _ _ _ => rfl)
    h.counter h.unborn
  intro x hx
  exact h.inTime x ((eraseIdx_sublist s.active j).subset hx)

theorem mark (h : Inv s) {j : Nat} {f : Attempt → Row → Row} {failed : Bool}
    (hf : ∀ a r, (f a r).attempts = if failed then r.attempts + 1 else r.attempts) :
    Inv (s.mark j f failed) := by
  unfold System.mark
  cases hj : s.active[j]? with
  | none => exact h
  | some a =>
    dsimp only
    cases hr : s.rows a.id with
    | none => exact h
    | some r =>
      dsimp only
      by_cases hlocked : s.locked a.id = true
      · rw [if_pos hlocked]
        exact h
      rw [if_neg hlocked]
      have hrows : ∀ k, k ≠ a.id → (s.setRow a.id (f a r)).rows k = s.rows k := by
        intro k hk
        exact update_of_ne hk _ _
      have hself : (s.setRow a.id (f a r)).rows a.id = some (f a r) :=
        update_self _ _ _
      refine h.of_polls rfl (Int.le_refl _) ?_ ?_ ?_ ?_ ?_
      · refine h.held.release j fun c hc => ?_
        exact leaseOf_congr (hrows c.id (h.held.key_ne_of_mem_eraseIdx hj hc))
      · intro x hx
        exact h.inTime x ((eraseIdx_sublist s.active j).subset hx)
      · intro p k hk
        refine hrows k ?_
        rintro rfl
        exact hlocked (decide_eq_true ⟨p, hk⟩)
      · intro k r' hr'
        have hcount := h.counter a.id r hr
        by_cases heq : k = a.id
        · have hr'' : (s.setRow a.id (f a r)).rows k = some r' := hr'
          rw [heq, hself, Option.some.injEq] at hr''
          rw [← hr'', hf a r]
          cases failed <;> simp [heq, hcount]
        · have hr'' : (s.setRow a.id (f a r)).rows k = some r' := hr'
          rw [hrows k heq] at hr''
          rw [h.counter k r' hr'']
          cases failed <;> simp [update_of_ne heq]
      · intro k hk
        have hk' : (s.setRow a.id (f a r)).rows k = none := hk
        have heq : k ≠ a.id := by
          rintro rfl
          rw [hself] at hk'
          cases hk'
        rw [hrows k heq] at hk'
        cases failed <;> simp [update_of_ne heq, h.unborn k hk']

theorem step (h : Inv s) {a : Action n} (ha : InTime s a) : Inv (s.step a) := by
  cases a with
  | tick elapsed =>
    have hnow : s.now ≤ s.now + (elapsed : Int) := by omega
    exact h.of_polls rfl hnow h.held ha (fun _ _ _ => rfl) h.counter h.unborn
  | create id => exact h.create id
  | begin p => exact h.begin p
  | select p ids => exact h.select p ids
  | lease p => exact h.lease p
  | commit p reply => exact h.commit ha
  | rollback p => exact h.rollback p
  | abandon j => exact h.abandon j
  | markDelivered | markFailed => exact h.mark fun _ _ => rfl

theorem mark_settled (h : Inv s) {j : Nat} {f : Attempt → Row → Row} {failed : Bool}
    {r : Row} (hr : s.rows id = some r) :
    ∃ r', (s.mark j f failed).rows id = some r' ∧ (r.status ≠ .pending → r' = r) := by
  unfold System.mark
  cases hj : s.active[j]? with
  | none => exact ⟨r, hr, fun _ => rfl⟩
  | some x =>
    obtain ⟨rx, hrx, hpending⟩ := h.pending (mem_of_getElem? hj)
    dsimp only
    rw [hrx]
    dsimp only
    by_cases hlocked : s.locked x.id = true
    · rw [if_pos hlocked]
      exact ⟨r, hr, fun _ => rfl⟩
    rw [if_neg hlocked]
    by_cases heq : id = x.id
    · rw [heq, hrx, Option.some.injEq] at hr
      refine ⟨f x rx, ?_, fun hsettled => absurd (hr ▸ hpending) hsettled⟩
      rw [heq]
      exact update_self _ _ _
    · exact ⟨r, (update_of_ne heq _ _).trans hr, fun _ => rfl⟩

theorem commit_settled (h : Inv s) {reply : Bool} {r : Row} (hr : s.rows id = some r) :
    ∃ r', (s.commit p reply).rows id = some r' ∧ (r.status ≠ .pending → r' = r) := by
  unfold System.commit
  cases hp : s.polls p with
  | idle | begun | selected => exact ⟨r, hr, fun _ => rfl⟩
  | leased start picked =>
    dsimp only
    by_cases hmem : id ∈ picked.map (·.id)
    · obtain ⟨_, d, _, hd, _⟩ := h.picked p id (by rw [hp]; exact hmem)
      obtain ⟨r', hr', hpending, _⟩ := leaseOf_eq_some.mp hd
      rw [hr, Option.some.injEq] at hr'
      refine ⟨{ r with nextAttemptAt := start + leaseTime }, ?_,
        fun hsettled => absurd (hr' ▸ hpending) hsettled⟩
      unfold System.leaseRows
      rw [if_pos hmem, hr]
      rfl
    · exact ⟨r, (leaseRows_of_not_mem hmem).trans hr, fun _ => rfl⟩

theorem keepsSettled (h : Inv s) (a : Action n) : KeepsSettled s a := by
  intro id r hr
  cases a with
  | tick | rollback | abandon => exact ⟨r, hr, fun _ => rfl⟩
  | create k =>
    unfold System.step
    dsimp only
    cases hk : s.rows k with
    | some _ => exact ⟨r, hr, fun _ => rfl⟩
    | none =>
      have hne : id ≠ k := by
        rintro rfl
        rw [hk] at hr
        cases hr
      exact ⟨r, (update_of_ne hne _ _).trans hr, fun _ => rfl⟩
  | begin p =>
    unfold System.step
    dsimp only
    cases s.polls p <;> exact ⟨r, hr, fun _ => rfl⟩
  | select p ids =>
    unfold System.step System.select
    dsimp only
    cases s.polls p with
    | begun start =>
      dsimp only
      split_ifs <;> exact ⟨r, hr, fun _ => rfl⟩
    | _ => exact ⟨r, hr, fun _ => rfl⟩
  | lease p =>
    unfold System.step
    dsimp only
    cases s.polls p <;> exact ⟨r, hr, fun _ => rfl⟩
  | commit p reply => exact h.commit_settled hr
  | markDelivered | markFailed => exact h.mark_settled hr

end Inv

/-- **A delivery is in one attempt at a time**, if every attempt ends before its lease. -/
theorem deliveries_leased (n : Nat) (now : Int) (acts : List (Action n))
    (h : Guarded System.step InTime (System.empty now) acts) :
    Sound (run System.step (System.empty now) acts) ∧
      Guarded System.step KeepsSettled (System.empty now) acts := by
  have hstep : ∀ (s : System n) (a : Action n), Inv s → InTime s a →
      Inv (s.step a) ∧ KeepsSettled s a :=
    fun _ a hs ha => ⟨hs.step ha, hs.keepsSettled a⟩
  constructor
  · exact (run_invariant (fun s a hs ha => (hstep s a hs ha).1) (Inv.empty now) h).sound
  · exact guarded_of_invariant hstep (Inv.empty now) h

end Invariant

deriving instance Decidable for InTime

def retried {n : Nat} (p q : Fin n) : List (Action n) :=
  [.create 7, .begin p, .begin q, .select p [7], .select q [7], .lease p, .lease q,
   .commit p true, .rollback q, .tick 35000000000, .markFailed 0 35000000000 "status 503",
   .tick 30000000000, .begin q, .select q [7], .lease q, .commit q true, .begin p,
   .select p [7], .tick 1000000000, .markDelivered 0]

theorem deliveries_leased_retried :
    Guarded System.step InTime (System.empty 0) (retried (0 : Fin 2) 1) ∧
      Sound (run System.step (System.empty 0) (retried (0 : Fin 2) 1)) ∧
      Guarded System.step KeepsSettled (System.empty 0) (retried (0 : Fin 2) 1) ∧
      (run System.step (System.empty 0) (retried (0 : Fin 2) 1)).rows 7 =
        some ⟨.delivered, 1, 365000000000, "status 503"⟩ := by
  have hguard : Guarded System.step InTime (System.empty 0) (retried (0 : Fin 2) 1) := by
    decide +kernel
  obtain ⟨hsound, hkeeps⟩ := deliveries_leased 2 0 (retried 0 1) hguard
  exact ⟨hguard, hsound, hkeeps, by decide +kernel⟩

end OciJanus.Webhook.Deliveries
