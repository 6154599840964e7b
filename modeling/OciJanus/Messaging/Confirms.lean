import OciJanus.Verified.Run

/-!
# Publishing with confirms

`Publish` takes the next confirmation off a channel without comparing delivery tags; a call that
stops waiting drains one, for at most thirty seconds. The broker confirms in order.
-/

namespace OciJanus.Messaging.Confirms

open Verified.Run List

structure Confirmation where
  deliveryTag : Nat
  ack : Bool

inductive PublishError where
  | publisherClosed
  | publish (err : String)
  | confirmChannelClosed
  | nacked (deliveryTag : Nat)
  | contextCancelled (err : String)
  | timeout
  deriving DecidableEq

abbrev Result := Except PublishError Unit

def defaultPublishTimeout : Int := 10 * 1000000000

def drainTimeout : Int := 30 * 1000000000

def withPublishTimeout (publishTimeout d : Int) : Int := if 0 < d then d else publishTimeout

def timerOf (publishTimeout : Int) : Int :=
  if publishTimeout ≤ 0 then defaultPublishTimeout else publishTimeout

inductive Call where
  | publish (id : Nat)
  | close

inductive Phase where
  | sending
  | waiting (deliveryTag : Nat) (deadline : Int)
  | draining (deliveryTag : Nat) (limit : Int) (err : PublishError)

structure Publisher where
  publishTimeout : Int
  closed : Bool
  now : Int
  calls : Nat
  blocked : List Call
  mu : Option (Nat × Phase)
  sent : List Nat
  confirms : List Confirmation
  confirmsClosed : Bool
  confirmed : Nat
  acked : List Nat
  returned : List (Nat × Result)

inductive Action where
  | tick (elapsed : Nat)
  | publish
  | close
  | lock (k : Nat)
  | send (err : Option String)
  | receive
  | cancel (err : String)
  | expire
  | drain
  | giveUp
  | confirm (c : Confirmation)
  | disconnect

namespace Publisher

def new (opts : List Int) (now : Int) : Publisher where
  publishTimeout := opts.foldl withPublishTimeout defaultPublishTimeout
  closed := false
  now := now
  calls := 0
  blocked := []
  mu := none
  sent := []
  confirms := []
  confirmsClosed := false
  confirmed := 0
  acked := []
  returned := []

variable (p : Publisher)

def ret (id : Nat) (r : Result) : Publisher :=
  { p with mu := none, returned := (id, r) :: p.returned }

def lock (k : Nat) : Publisher :=
  match p.mu, p.blocked[k]? with
  | none, some (.publish id) =>
    let p := { p with blocked := p.blocked.eraseIdx k }
    if p.closed then p.ret id (.error .publisherClosed)
    else { p with mu := some (id, .sending) }
  | none, some .close =>
    { p with blocked := p.blocked.eraseIdx k, closed := true, confirmsClosed := true }
  | _, _ => p

def send (err : Option String) : Publisher :=
  match p.mu, err with
  | some (id, .sending), none =>
    { p with
      sent := p.sent ++ [id]
      mu := some (id, .waiting (p.sent.length + 1) (p.now + timerOf p.publishTimeout)) }
  | some (id, .sending), some err => p.ret id (.error (.publish err))
  | _, _ => p

def receive : Publisher :=
  match p.mu, p.confirms with
  | some (id, .waiting _ _), c :: rest =>
    { p with confirms := rest }.ret id (if c.ack then .ok () else .error (.nacked c.deliveryTag))
  | some (id, .waiting _ _), [] =>
    if p.confirmsClosed then p.ret id (.error .confirmChannelClosed) else p
  | _, _ => p

def cancel (err : String) : Publisher :=
  match p.mu with
  | some (id, .waiting tag _) =>
    { p with mu := some (id, .draining tag (p.now + drainTimeout) (.contextCancelled err)) }
  | _ => p

def expire : Publisher :=
  match p.mu with
  | some (id, .waiting tag deadline) =>
    if deadline ≤ p.now then
      { p with mu := some (id, .draining tag (p.now + drainTimeout) .timeout) }
    else p
  | _ => p

def drain : Publisher :=
  match p.mu, p.confirms with
  | some (id, .draining _ _ err), _ :: rest => { p with confirms := rest }.ret id (.error err)
  | some (id, .draining _ _ err), [] =>
    if p.confirmsClosed then p.ret id (.error err) else p
  | _, _ => p

def giveUp : Publisher :=
  match p.mu with
  | some (id, .draining _ limit err) =>
    if limit ≤ p.now then p.ret id (.error err) else p
  | _ => p

def confirm (c : Confirmation) : Publisher :=
  if p.confirmsClosed = false ∧ p.confirmed < c.deliveryTag ∧ c.deliveryTag ≤ p.sent.length then
    { p with
      confirms := p.confirms ++ [c]
      confirmed := c.deliveryTag
      acked := if c.ack then c.deliveryTag :: p.acked else p.acked }
  else p

def step : Action → Publisher
  | .tick elapsed => { p with now := p.now + elapsed }
  | .publish =>
    { p with blocked := p.blocked ++ [.publish p.calls], calls := p.calls + 1 }
  | .close => { p with blocked := p.blocked ++ [.close] }
  | .lock k => p.lock k
  | .send err => p.send err
  | .receive => p.receive
  | .cancel err => p.cancel err
  | .expire => p.expire
  | .drain => p.drain
  | .giveUp => p.giveUp
  | .confirm c => p.confirm c
  | .disconnect => { p with confirmsClosed := true }

def awaited : Option Nat :=
  match p.mu with
  | some (_, .waiting tag _) => some tag
  | some (_, .draining tag _ _) => some tag
  | _ => none

end Publisher

/-- A publish that returned nil had its own message acknowledged. -/
def OwnAck (p : Publisher) : Prop :=
  ∀ id, (id, .ok ()) ∈ p.returned → ∃ k, p.sent[k]? = some id ∧ k + 1 ∈ p.acked

def LeavesNoConfirm (p : Publisher) : Action → Prop
  | .giveUp => p.confirms = []
  | .confirm c => p.awaited = some c.deliveryTag
  | _ => True

instance (p : Publisher) (a : Action) : Decidable (LeavesNoConfirm p a) := by
  cases a <;> unfold LeavesNoConfirm <;> infer_instance

def Sender (p : Publisher) : Prop :=
  ∀ id ph, p.mu = some (id, ph) → ∀ tag, p.awaited = some tag →
    ∃ k, tag = k + 1 ∧ p.sent[k]? = some id

structure Inv (p : Publisher) : Prop where
  ownAck : OwnAck p
  sender : Sender p
  single : p.confirms.length ≤ 1
  own : ∀ c ∈ p.confirms, p.awaited = some c.deliveryTag
  past : ∀ c ∈ p.confirms, c.deliveryTag ≤ p.confirmed
  acked : ∀ c ∈ p.confirms, c.ack = true → c.deliveryTag ∈ p.acked

namespace Inv

variable {p : Publisher}

theorem new (opts : List Int) (now : Int) : Inv (.new opts now) where
  ownAck _ h := by cases h
  sender _ _ h := by cases h
  single := Nat.zero_le 1
  own _ h := by cases h
  past _ h := by cases h
  acked _ h := by cases h

theorem confirms_nil (h : Inv p) (hp : p.awaited = none) : p.confirms = [] := by
  apply eq_nil_iff_forall_not_mem.mpr
  intro c hc
  have hown := h.own c hc
  rw [hp] at hown
  cases hown

theorem rest_nil (h : Inv p) {c : Confirmation} {rest : List Confirmation}
    (hc : p.confirms = c :: rest) : rest = [] := by
  have hsingle := h.single
  rw [hc, length_cons] at hsingle
  exact length_eq_zero_iff.mp (by omega)

variable {p' : Publisher}

theorem of_same (h : Inv p) (hsent : p'.sent = p.sent)
    (hconfirms : p'.confirms = p.confirms) (hconfirmed : p'.confirmed = p.confirmed)
    (hacked : p'.acked = p.acked) (hreturned : p'.returned = p.returned)
    (hawaited : p'.awaited = p.awaited) (hsender : Sender p') : Inv p' where
  ownAck := by
    unfold OwnAck
    rw [hreturned, hsent, hacked]
    exact h.ownAck
  sender := hsender
  single := by rw [hconfirms]; exact h.single
  own := by rw [hconfirms, hawaited]; exact h.own
  past := by rw [hconfirms, hconfirmed]; exact h.past
  acked := by rw [hconfirms, hacked]; exact h.acked

theorem of_nil (h : Inv p) (hconfirms : p'.confirms = [])
    (hsent : ∀ (k id : Nat), p.sent[k]? = some id → p'.sent[k]? = some id)
    (hacked : p'.acked = p.acked)
    (hreturned : ∀ id, (id, .ok ()) ∈ p'.returned → (id, .ok ()) ∈ p.returned ∨
      ∃ k : Nat, p.sent[k]? = some id ∧ k + 1 ∈ p.acked)
    (hsender : Sender p') : Inv p' where
  ownAck id hid := by
    have hold : ∃ k : Nat, p.sent[k]? = some id ∧ k + 1 ∈ p.acked := by
      rcases hreturned id hid with hid | hid
      · exact h.ownAck id hid
      · exact hid
    obtain ⟨k, hk, hack⟩ := hold
    rw [hacked]
    exact ⟨k, hsent k id hk, hack⟩
  sender := hsender
  single := by rw [hconfirms]; exact Nat.zero_le 1
  own := by simp [hconfirms]
  past := by simp [hconfirms]
  acked := by simp [hconfirms]

theorem error {id : Nat} {err : PublishError} (h : Inv p)
    (hconfirms : p'.confirms = []) (hsent : p'.sent = p.sent) (hacked : p'.acked = p.acked)
    (hreturned : p'.returned = (id, .error err) :: p.returned) (hmu : p'.mu = none) : Inv p' := by
  refine h.of_nil hconfirms (fun k id hk => by rw [hsent]; exact hk) hacked ?_ ?_
  · intro id' hid
    rw [hreturned] at hid
    exact Or.inl (by simpa using hid)
  · intro _ _ hsome
    rw [hmu] at hsome
    cases hsome

theorem lock (h : Inv p) (k : Nat) : Inv (p.lock k) := by
  unfold Publisher.lock
  cases hmu : p.mu with
  | some holder => exact h
  | none =>
    have hnil : p.confirms = [] := h.confirms_nil (by simp [Publisher.awaited, hmu])
    cases hk : p.blocked[k]? with
    | none => exact h
    | some call =>
      cases call with
      | publish id =>
        show Inv (if p.closed then _ else _)
        split_ifs
        · exact h.error hnil rfl rfl rfl rfl
        · refine h.of_nil hnil (fun _ _ hk => hk) rfl (fun _ hid => Or.inl hid) ?_
          intro _ _ _ tag htag
          cases htag
      | close =>
        refine h.of_nil hnil (fun _ _ hk => hk) rfl (fun _ hid => Or.inl hid) ?_
        intro _ _ hsome
        cases hsome

theorem send (h : Inv p) (err : Option String) : Inv (p.send err) := by
  have hnil {id : Nat} (hmu : p.mu = some (id, .sending)) : p.confirms = [] :=
    h.confirms_nil (by simp [Publisher.awaited, hmu])
  unfold Publisher.send
  split
  next id hmu =>
    refine h.of_nil (hnil hmu) ?_ rfl (fun _ hid => Or.inl hid) ?_
    · intro k id' hk
      show (p.sent ++ [id])[k]? = some id'
      rw [List.getElem?_append_left (List.getElem?_eq_some_iff.mp hk).1, hk]
    · intro id' ph hsome tag htag
      cases hsome
      cases htag
      refine ⟨p.sent.length, rfl, ?_⟩
      show (p.sent ++ [id])[p.sent.length]? = some id
      simp
  next hmu => exact h.error (hnil hmu) rfl rfl rfl rfl
  next => exact h

theorem receive (h : Inv p) : Inv p.receive := by
  unfold Publisher.receive
  split
  next id _ _ c rest hmu hc =>
    have hmem : c ∈ p.confirms := by simp [hc]
    refine h.of_nil (h.rest_nil hc) (fun _ _ hk => hk) rfl ?_ (fun _ _ hnone => by cases hnone)
    intro id' hid
    rcases mem_cons.mp hid with heq | hold
    · cases hack : c.ack with
      | false => simp [hack] at heq
      | true =>
        obtain ⟨k, hk, hsent⟩ := h.sender id _ hmu c.deliveryTag (h.own c hmem)
        have hid' : id' = id := (Prod.mk.inj heq).1
        rw [hid']
        exact Or.inr ⟨k, hsent, hk ▸ h.acked c hmem hack⟩
    · exact Or.inl hold
  next hc =>
    split_ifs
    · exact h.error hc rfl rfl rfl rfl
    · exact h
  next => exact h

theorem startDrain (h : Inv p) {id tag : Nat} {deadline limit : Int} {err : PublishError}
    (hmu : p.mu = some (id, .waiting tag deadline)) :
    Inv { p with mu := some (id, .draining tag limit err) } := by
  have hawaited : p.awaited = some tag := by simp [Publisher.awaited, hmu]
  refine h.of_same rfl rfl rfl rfl rfl ?_ ?_
  · rw [hawaited]
    rfl
  · intro id' ph hsome tag' htag
    cases hsome
    cases htag
    exact h.sender id _ hmu tag hawaited

theorem cancel (h : Inv p) (err : String) : Inv (p.cancel err) := by
  unfold Publisher.cancel
  split
  next hmu => exact h.startDrain hmu
  next => exact h

theorem expire (h : Inv p) : Inv p.expire := by
  unfold Publisher.expire
  split
  next hmu =>
    split_ifs
    · exact h.startDrain hmu
    · exact h
  next => exact h

theorem drain (h : Inv p) : Inv p.drain := by
  unfold Publisher.drain
  split
  next hc => exact h.error (h.rest_nil hc) rfl rfl rfl rfl
  next hc =>
    split_ifs
    · exact h.error hc rfl rfl rfl rfl
    · exact h
  next => exact h

theorem giveUp (h : Inv p) (hnil : p.confirms = []) : Inv p.giveUp := by
  unfold Publisher.giveUp
  split
  · split_ifs
    · exact h.error hnil rfl rfl rfl rfl
    · exact h
  · exact h

theorem confirm (h : Inv p) {c : Confirmation} (hc : p.awaited = some c.deliveryTag) :
    Inv (p.confirm c) := by
  unfold Publisher.confirm
  by_cases hsent : p.confirmsClosed = false ∧ p.confirmed < c.deliveryTag ∧
      c.deliveryTag ≤ p.sent.length
  · rw [if_pos hsent]
    -- The message was not confirmed before, so nothing is in the channel.
    have hnil : p.confirms = [] := by
      apply eq_nil_iff_forall_not_mem.mpr
      intro c' hc'
      have hown := h.own c' hc'
      rw [hc, Option.some.injEq] at hown
      have hpast := h.past c' hc'
      omega
    have hmem : ∀ tag ∈ p.acked, tag ∈ (if c.ack then c.deliveryTag :: p.acked else p.acked) := by
      intro tag htag
      split_ifs
      · exact mem_cons_of_mem _ htag
      · exact htag
    constructor
    · intro id hid
      obtain ⟨k, hk, hack⟩ := h.ownAck id hid
      exact ⟨k, hk, hmem _ hack⟩
    · exact h.sender
    · simp [hnil]
    · intro c' hc'
      rw [show c' = c by simpa [hnil] using hc']
      exact hc
    · intro c' hc'
      have heq : c' = c := by simpa [hnil] using hc'
      subst heq
      exact Nat.le_refl _
    · intro c' hc' hack
      have heq : c' = c := by simpa [hnil] using hc'
      subst heq
      simp [hack]
  · rw [if_neg hsent]
    exact h

theorem step (h : Inv p) {a : Action} (ha : LeavesNoConfirm p a) : Inv (p.step a) := by
  cases a with
  | tick | publish | close | disconnect => exact h.of_same rfl rfl rfl rfl rfl rfl h.sender
  | lock k => exact h.lock k
  | send err => exact h.send err
  | receive => exact h.receive
  | cancel err => exact h.cancel err
  | expire => exact h.expire
  | drain => exact h.drain
  | giveUp => exact h.giveUp ha
  | confirm c => exact h.confirm ha

end Inv

/-- **A publish is confirmed by its own acknowledgement**, if none outlives its call. -/
theorem publish_own_ack (opts : List Int) (now : Int) (acts : List Action)
    (h : Guarded Publisher.step LeavesNoConfirm (.new opts now) acts) :
    OwnAck (run Publisher.step (.new opts now) acts) := by
  have hinv : Inv (run Publisher.step (.new opts now) acts) :=
    run_invariant (fun _ _ hp ha => hp.step ha) (Inv.new opts now) h
  exact hinv.ownAck

def promptConfirm : List Action :=
  [.publish, .publish, .lock 0, .send none, .confirm ⟨1, true⟩, .receive,
    .lock 0, .send none, .tick 10000000000, .expire, .confirm ⟨2, true⟩, .drain]

theorem publish_own_ack_prompt :
    Guarded Publisher.step LeavesNoConfirm (.new [] 0) promptConfirm ∧
    (run Publisher.step (.new [] 0) promptConfirm).returned = [(1, .error .timeout), (0, .ok ())] ∧
    OwnAck (run Publisher.step (.new [] 0) promptConfirm) := by
  have h : Guarded Publisher.step LeavesNoConfirm (.new [] 0) promptConfirm := by decide
  exact ⟨h, by decide, publish_own_ack [] 0 promptConfirm h⟩

def lateConfirm : List Action :=
  [.publish, .publish, .lock 0, .send none, .tick 10000000000, .expire,
    .tick 30000000000, .giveUp, .confirm ⟨1, true⟩, .lock 0, .send none, .receive]

theorem late_confirm_taken :
    (run Publisher.step (.new [] 0) lateConfirm).returned = [(1, .ok ()), (0, .error .timeout)] ∧
    (run Publisher.step (.new [] 0) lateConfirm).sent = [0, 1] ∧
    (run Publisher.step (.new [] 0) lateConfirm).acked = [1] ∧
    ¬ OwnAck (run Publisher.step (.new [] 0) lateConfirm) := by
  have hreturned : (run Publisher.step (.new [] 0) lateConfirm).returned =
      [(1, .ok ()), (0, .error .timeout)] := by decide
  have hsent : (run Publisher.step (.new [] 0) lateConfirm).sent = [0, 1] := by decide
  have hacked : (run Publisher.step (.new [] 0) lateConfirm).acked = [1] := by decide
  refine ⟨hreturned, hsent, hacked, fun h => ?_⟩
  obtain ⟨k, hk, hack⟩ := h 1 (by simp [hreturned])
  have hzero : k = 0 := by simpa [hacked] using hack
  simp [hsent, hzero] at hk

end OciJanus.Messaging.Confirms
