import Mathlib.Data.List.Perm.Basic
import Mathlib.Data.List.TakeWhile

/-!
# Draining the dead letters of one tenant

A message of the tenant is published again and acknowledged; any other is put back.
-/

namespace OciJanus.Audit.ExportDrain

open List

inductive Requeue where
  | head
  | tail

structure Message where
  body : String

variable (place : Requeue) (tenantOf : Message → Option String) (tenantID : String)

def isOf (msg : Message) : Bool := tenantOf msg == some tenantID

def requeue (msg : Message) (queue : List Message) : List Message :=
  match place with
  | .head => msg :: queue
  | .tail => queue ++ [msg]

def drainLoop : Nat → List Message → List Message × List Message
  | 0, queue => ([], queue)
  | _ + 1, [] => ([], [])
  | rounds + 1, msg :: queue =>
    if isOf tenantOf tenantID msg then
      let rest := drainLoop rounds queue
      (msg :: rest.1, rest.2)
    else drainLoop rounds (requeue place msg queue)

def maxDrain : Nat := 10000

def drain (queue : List Message) : List Message × List Message :=
  drainLoop place tenantOf tenantID maxDrain queue

variable {place tenantOf tenantID}

theorem requeue_perm (place : Requeue) (msg : Message) (queue : List Message) :
    (requeue place msg queue).Perm (msg :: queue) := by
  cases place with
  | head => exact .refl _
  | tail => exact perm_append_singleton msg queue

theorem drainLoop_others (rounds : Nat) {queue : List Message}
    (h : ∀ m ∈ queue, isOf tenantOf tenantID m = false) :
    (drainLoop place tenantOf tenantID rounds queue).1 = [] ∧
      (drainLoop place tenantOf tenantID rounds queue).2.Perm queue := by
  induction rounds generalizing queue with
  | zero => exact ⟨rfl, .refl _⟩
  | succ rounds ih =>
    cases queue with
    | nil => exact ⟨rfl, .refl _⟩
    | cons msg queue =>
      have hperm := requeue_perm place msg queue
      obtain ⟨hnone, hkept⟩ := ih fun m hm => h m (hperm.mem_iff.mp hm)
      rw [drainLoop, h msg mem_cons_self]
      exact ⟨hnone, hkept.trans hperm⟩

theorem drainLoop_tail (rounds : Nat) (unseen seen : List Message)
    (hrounds : unseen.length ≤ rounds) (hseen : ∀ m ∈ seen, isOf tenantOf tenantID m = false) :
    (drainLoop .tail tenantOf tenantID rounds (unseen ++ seen)).1 =
        unseen.filter (isOf tenantOf tenantID) ∧
      (drainLoop .tail tenantOf tenantID rounds (unseen ++ seen)).2.Perm
        (seen ++ unseen.filter fun m => !isOf tenantOf tenantID m) := by
  induction unseen generalizing rounds seen with
  | nil => simpa using drainLoop_others rounds hseen
  | cons msg unseen ih =>
    obtain ⟨rounds, rfl⟩ : ∃ k, rounds = k + 1 := ⟨rounds - 1, by simp at hrounds; omega⟩
    have hleft : unseen.length ≤ rounds := by simpa using hrounds
    rw [cons_append, drainLoop]
    cases hmsg : isOf tenantOf tenantID msg with
    | true =>
      obtain ⟨hout, hkept⟩ := ih rounds seen hleft hseen
      simp [hmsg, hout, hkept]
    | false =>
      obtain ⟨hout, hkept⟩ := ih rounds (seen ++ [msg]) hleft
        (by simpa [or_imp, forall_and, hmsg] using hseen)
      simpa [hmsg, requeue] using And.intro hout hkept

/-- A message put back at the head is the next one fetched. -/
theorem drainLoop_head_stuck (rounds : Nat) {msg : Message} {queue : List Message}
    (hmsg : isOf tenantOf tenantID msg = false) :
    drainLoop .head tenantOf tenantID rounds (msg :: queue) = ([], msg :: queue) := by
  induction rounds with
  | zero => rfl
  | succ rounds ih => simpa [drainLoop, hmsg, requeue] using ih

theorem drainLoop_head (rounds : Nat) (queue : List Message) (hrounds : queue.length ≤ rounds) :
    drainLoop .head tenantOf tenantID rounds queue =
      (queue.takeWhile (isOf tenantOf tenantID), queue.dropWhile (isOf tenantOf tenantID)) := by
  induction queue generalizing rounds with
  | nil => cases rounds <;> rfl
  | cons msg queue ih =>
    cases hmsg : isOf tenantOf tenantID msg with
    | false => simp [drainLoop_head_stuck rounds hmsg, hmsg]
    | true =>
      obtain ⟨rounds, rfl⟩ : ∃ k, rounds = k + 1 := ⟨rounds - 1, by simp at hrounds; omega⟩
      simp [drainLoop, hmsg, ih rounds (by simpa using hrounds)]

/-- **A drain is exact** if and only if the broker requeues at the tail or the messages of the
tenant stand before all others. -/
theorem drain_exact_iff (place : Requeue) (tenantOf : Message → Option String) (tenantID : String)
    (queue : List Message) (hlen : queue.length ≤ maxDrain) :
    ((drain place tenantOf tenantID queue).1 = queue.filter (isOf tenantOf tenantID) ∧
      (drain place tenantOf tenantID queue).2.Perm
        (queue.filter fun m => !isOf tenantOf tenantID m)) ↔
      place = .tail ∨ ∃ mine others, queue = mine ++ others ∧
        (∀ m ∈ mine, isOf tenantOf tenantID m = true) ∧
        ∀ m ∈ others, isOf tenantOf tenantID m = false := by
  cases place with
  | tail =>
    refine iff_of_true ?_ (.inl rfl)
    simpa [drain] using drainLoop_tail maxDrain queue [] hlen (by simp)
  | head =>
    rw [drain, drainLoop_head maxDrain queue hlen]
    constructor
    · rintro ⟨hout, -⟩
      have hsplit := takeWhile_append_dropWhile (p := isOf tenantOf tenantID) (l := queue)
      refine .inr ⟨_, _, hsplit.symm, fun m hm => mem_takeWhile_imp hm, ?_⟩
      rw [← hsplit, filter_append, filter_eq_self.mpr fun m hm => mem_takeWhile_imp hm,
        hsplit] at hout
      simpa [filter_eq_nil_iff] using hout
    · rintro (hplace | ⟨mine, others, rfl, hmine, hothers⟩)
      · cases hplace
      · have htake : others.takeWhile (isOf tenantOf tenantID) = [] := by
          cases others with
          | nil => rfl
          | cons m others => simp [hothers m mem_cons_self]
        have hdrop : others.dropWhile (isOf tenantOf tenantID) = others := by
          simpa [htake] using
            takeWhile_append_dropWhile (p := isOf tenantOf tenantID) (l := others)
        have hnone : mine.filter (fun m => !isOf tenantOf tenantID m) = [] := by simpa using hmine
        have hall : others.filter (fun m => !isOf tenantOf tenantID m) = others := by
          simpa using hothers
        rw [takeWhile_append_of_pos hmine, dropWhile_append_of_pos hmine, htake, hdrop,
          filter_append, filter_append, filter_eq_self.mpr hmine, hnone, hall,
          filter_eq_nil_iff.mpr (by simpa using hothers)]
        exact ⟨rfl, .refl _⟩

theorem two_tenants_drained :
    (drain .tail (fun m => some m.body) "t" [⟨"u"⟩, ⟨"t"⟩]).1 = [⟨"t"⟩] ∧
      (drain .tail (fun m => some m.body) "t" [⟨"u"⟩, ⟨"t"⟩]).2.Perm [⟨"u"⟩] :=
  (drain_exact_iff .tail (fun m => some m.body) "t" [⟨"u"⟩, ⟨"t"⟩] (by decide)).mpr (.inl rfl)

theorem message_behind_not_drained :
    drain .head (fun m => some m.body) "t" [⟨"u"⟩, ⟨"t"⟩] = ([], [⟨"u"⟩, ⟨"t"⟩]) :=
  drainLoop_head maxDrain _ (by decide)

/-- **A drain loses nothing**, wherever the broker requeues and however long the queue is. -/
theorem drain_conserves (place : Requeue) (tenantOf : Message → Option String)
    (tenantID : String) (rounds : Nat) (queue : List Message) :
    let d := drainLoop place tenantOf tenantID rounds queue
    (d.1 ++ d.2).Perm queue ∧ ∀ m ∈ d.1, isOf tenantOf tenantID m = true := by
  fun_induction drainLoop place tenantOf tenantID rounds queue with
  | case1 | case2 => exact ⟨.refl _, nofun⟩
  | case3 rounds msg queue hmsg rest ih =>
    exact ⟨ih.1.cons msg, forall_mem_cons.mpr ⟨hmsg, ih.2⟩⟩
  | case4 rounds msg queue hmsg ih => exact ⟨ih.1.trans (requeue_perm place msg queue), ih.2⟩

end OciJanus.Audit.ExportDrain
