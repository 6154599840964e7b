import OciJanus.Webhook.Deliveries

/-!
# When a failed delivery is tried again

`NextRetryAt` is asked for the number of attempts made, so the first of `retryDelays` is never
used.
-/

namespace OciJanus.Webhook.RetrySchedule

open Webhook.Deliveries Verified.Run

inductive Exit where
  | endpointNotLoaded
  | secretNotDecoded
  | secretNotDecrypted
  | posted (failure : Option String)

def Exit.requested : Exit → Bool
  | .posted _ => true
  | _ => false

structure Try where
  (start workerNow : Int)
  exit : Exit

def created (now : Int) : Row := ⟨.pending, 0, now, ""⟩

abbrev Due (r : Row) (t : Try) : Prop := r.status = .pending ∧ r.nextAttemptAt ≤ t.start

def attemptDelivery (r : Row) (t : Try) : Row :=
  let leased := { r with nextAttemptAt := t.start + leaseTime }
  match t.exit with
  | .endpointNotLoaded | .secretNotDecoded | .secretNotDecrypted => leased
  | .posted none => leased.markDelivered
  | .posted (some err) => leased.markFailed err (nextRetryAt t.workerNow (r.attempts + 1))

structure Counted (r : Row) : Prop where
  bound : r.attempts ≤ 5
  dead : r.attempts = 5 → r.status = .dead

variable {r : Row} {t : Try}

theorem Counted.lt (h : Counted r) (hdue : Due r t) : r.attempts < 5 := by
  refine lt_of_le_of_ne h.bound fun hfive => ?_
  cases hdue.1.symm.trans (h.dead hfive)

theorem attemptDelivery_failed (h : Counted r) (hdue : Due r t) {err : String}
    (hexit : t.exit = .posted (some err)) :
    (attemptDelivery r t).attempts = r.attempts + 1 ∧
      if r.attempts + 1 < 5 then
        (attemptDelivery r t).status = .pending ∧ ∃ delay ∈ retryDelays[r.attempts + 1]?,
          (attemptDelivery r t).nextAttemptAt = t.workerNow + delay
      else (attemptDelivery r t).status = .dead := by
  have hlt := h.lt hdue
  have hlen : retryDelays.length = 5 := rfl
  unfold attemptDelivery
  rw [hexit]
  refine ⟨rfl, ?_⟩
  split_ifs with hmore
  · have hdelay := List.getElem?_eq_getElem (hlen ▸ hmore)
    exact ⟨by simp [Row.markFailed, nextRetryAt, hdelay], _, hdelay, by
      simp [Row.markFailed, nextRetryAt, hdelay]⟩
  · have hnone : retryDelays[r.attempts + 1]? = none := List.getElem?_eq_none (by omega)
    simp [Row.markFailed, nextRetryAt, hnone]

theorem Counted.attemptDelivery (h : Counted r) (hdue : Due r t) :
    Counted (attemptDelivery r t) := by
  have hlt := h.lt hdue
  cases hexit : t.exit with
  | posted failure =>
    cases failure with
    | none =>
      unfold RetrySchedule.attemptDelivery
      rw [hexit]
      exact ⟨h.bound, fun hfive => absurd hfive hlt.ne⟩
    | some err =>
      obtain ⟨hcount, hnext⟩ := attemptDelivery_failed h hdue hexit
      refine ⟨by omega, fun hfive => ?_⟩
      rwa [if_neg (by omega)] at hnext
  | _ =>
    unfold RetrySchedule.attemptDelivery
    rw [hexit]
    exact ⟨h.bound, h.dead⟩

theorem counted_run (h : Counted r) {tries : List Try}
    (hdue : Guarded attemptDelivery Due r tries) : Counted (run attemptDelivery r tries) :=
  run_invariant (fun _ _ h hdue => h.attemptDelivery hdue) h hdue

theorem attempts_run (h : Counted r) {tries : List Try}
    (hdue : Guarded attemptDelivery Due r tries) (hfailed : ∀ t ∈ tries, t.exit ≠ .posted none) :
    (run attemptDelivery r tries).attempts = r.attempts + tries.countP (·.exit.requested) := by
  induction tries generalizing r with
  | nil => rfl
  | cons t tries ih =>
    rw [List.forall_mem_cons] at hfailed
    rw [run_cons, ih (h.attemptDelivery hdue.1) hdue.2 hfailed.2, List.countP_cons]
    cases hexit : t.exit with
    | posted failure =>
      cases failure with
      | none => exact absurd hexit hfailed.1
      | some err =>
        simp only [(attemptDelivery_failed h hdue.1 hexit).1, Exit.requested, if_true]
        omega
    | _ => simp [attemptDelivery, hexit, Exit.requested]

/-- A delivered row is not due again, so the attempts of a pending one have all failed. -/
theorem failed_of_pending {tries : List Try} (hdue : Guarded attemptDelivery Due r tries)
    (hpending : (run attemptDelivery r tries).status = .pending) :
    ∀ t ∈ tries, t.exit ≠ .posted none := by
  induction tries generalizing r with
  | nil => nofun
  | cons t tries ih =>
    refine List.forall_mem_cons.mpr ⟨fun hexit => ?_, ih hdue.2 hpending⟩
    have hdelivered : (attemptDelivery r t).status = .delivered := by
      rw [attemptDelivery, hexit]
      rfl
    cases tries with
    | nil => cases hdelivered.symm.trans hpending
    | cons t' tries => cases hdelivered.symm.trans hdue.2.1.1

/-- What is promised after the failed attempt `t`, the one after `n` others: a delay from the table,
or the end. -/
def OnSchedule (n : Nat) (t : Try) (r : Row) : Prop :=
  if n < 5 then
    r.status = .pending ∧ ∃ delay ∈ retryDelays[n]?, r.nextAttemptAt = t.workerNow + delay
  else r.status = .dead

theorem onSchedule_posted_iff (h : Counted r) (hdue : Due r t) {err : String}
    (hexit : t.exit = .posted (some err)) (n : Nat) :
    OnSchedule n t (attemptDelivery r t) ↔
      if n < 5 then n = r.attempts + 1 else r.attempts = 4 := by
  have hinj : ∀ i < 5, ∀ j < 5, retryDelays[i]? = retryDelays[j]? → i = j := by decide
  obtain ⟨-, hnext⟩ := attemptDelivery_failed h hdue hexit
  have hlt := h.lt hdue
  unfold OnSchedule
  split_ifs at hnext ⊢ with hn hmore hmore
  · obtain ⟨hstatus, delay, hdelay, hat⟩ := hnext
    constructor
    · rintro ⟨-, delay', hdelay', hat'⟩
      have hsame : delay' = delay := by omega
      exact hinj n hn _ hmore (hdelay'.trans (hsame ▸ hdelay.symm))
    · rintro rfl
      exact ⟨hstatus, delay, hdelay, hat⟩
  · exact iff_of_false (fun hp => by cases hp.1.symm.trans hnext) (by omega)
  · exact iff_of_false (fun hdead => by cases hdead.symm.trans hnext.1) (by omega)
  · exact iff_of_true hnext (by omega)

theorem onSchedule_aborted_iff (hdue : Due r t) (hexit : t.exit.requested = false) (n : Nat) :
    OnSchedule n t (attemptDelivery r t) ↔
      ∃ delay ∈ retryDelays[n]?, t.start + leaseTime = t.workerNow + delay := by
  have hrow : attemptDelivery r t = { r with nextAttemptAt := t.start + leaseTime } := by
    unfold attemptDelivery
    cases ht : t.exit with
    | posted failure => rw [ht] at hexit; cases hexit
    | _ => rfl
  rw [OnSchedule, hrow]
  split_ifs with hn
  · simp [hdue.1]
  · rw [List.getElem?_eq_none (Nat.le_of_not_lt hn)]
    simp [hdue.1]

/-- **The schedule of retries**, and which failed attempts keep to the promised one. -/
theorem retries_follow_table (now : Int) (tries : List Try)
    (hdue : Guarded attemptDelivery Due (created now) tries) :
    let r := run attemptDelivery (created now) tries
    (∀ t : Try, Due (created now) t ↔ now ≤ t.start) ∧
      (∀ (t : Try) (err : String), Due r t → t.exit = .posted (some err) →
        (attemptDelivery r t).attempts = r.attempts + 1 ∧
          if r.attempts + 1 < 5 then
            (attemptDelivery r t).status = .pending ∧ ∃ delay ∈ retryDelays[r.attempts + 1]?,
              (attemptDelivery r t).nextAttemptAt = t.workerNow + delay
          else (attemptDelivery r t).status = .dead) ∧
      ((∀ t ∈ tries, ∃ err, t.exit = .posted (some err)) →
        tries.length ≤ 5 ∧ (tries.length = 5 → r.status = .dead)) ∧
      ∀ t : Try, Due r t → t.exit ≠ .posted none →
        (OnSchedule tries.length t (attemptDelivery r t) ↔
          if t.exit.requested then
            let posts := tries.countP (·.exit.requested)
            if tries.length < 5 then tries.length = posts + 1 else posts = 4
          else ∃ delay ∈ retryDelays[tries.length]?,
            t.start + leaseTime = t.workerNow + delay) := by
  intro r
  have hstart : Counted (created now) := ⟨Nat.zero_le 5, nofun⟩
  have hr : Counted r := counted_run hstart hdue
  refine ⟨fun t => by simp [Due, created], fun t err hdue hexit =>
    attemptDelivery_failed hr hdue hexit, fun hfailed => ?_, fun t ht hexit => ?_⟩
  · have hcount : r.attempts = tries.length := by
      have hposted : tries.countP (·.exit.requested) = tries.length := by
        refine List.countP_eq_length.mpr fun t ht => ?_
        obtain ⟨err, herr⟩ := hfailed t ht
        rw [herr]
        rfl
      rw [← hposted]
      refine (attempts_run hstart hdue fun t ht => ?_).trans (Nat.zero_add _)
      obtain ⟨err, herr⟩ := hfailed t ht
      rw [herr]
      nofun
    exact ⟨hcount ▸ hr.bound, fun hfive => hr.dead (hcount.trans hfive)⟩
  · have hcount : r.attempts = tries.countP (·.exit.requested) :=
      (attempts_run hstart hdue (failed_of_pending hdue ht.1)).trans (Nat.zero_add _)
    cases hposted : t.exit with
    | posted failure =>
      cases failure with
      | none => exact absurd hposted hexit
      | some err =>
        rw [onSchedule_posted_iff hr ht hposted, hcount]
        rfl
    | _ => exact onSchedule_aborted_iff ht (by rw [hposted]; rfl) tries.length

def failsAt (start : Int) : Try := ⟨start, start, .posted (some "HTTP 500")⟩

def hour : Int := 3600 * second

theorem five_failures_dead :
    (run attemptDelivery (created 0) ((List.range 5).map fun i => failsAt (3 * hour * i))).status =
      .dead :=
  ((retries_follow_table 0 ((List.range 5).map fun i => failsAt (3 * hour * i))
    (by decide)).2.2.1 (by simp [failsAt])).2 rfl

theorem late_retry_and_endless_delivery :
    (attemptDelivery (created 0) (failsAt 0)).nextAttemptAt = 30 * second ∧
      retryDelays[0]? = some (5 * second) ∧
      ∀ k : Nat, (run attemptDelivery (created 0) ((List.range k).map fun i =>
        ⟨hour * i, hour * i, .secretNotDecrypted⟩)).status = .pending := by
  refine ⟨by decide, rfl, fun k => ?_⟩
  have hstep : ∀ (r : Row) (t : Try), r.status = .pending → t.exit = .secretNotDecrypted →
      (attemptDelivery r t).status = .pending := by
    intro r t hr ht
    rw [attemptDelivery, ht]
    exact hr
  refine run_invariant (I := fun r : Row => r.status = .pending) hstep rfl (guarded_of_forall ?_)
  simp

end OciJanus.Webhook.RetrySchedule
