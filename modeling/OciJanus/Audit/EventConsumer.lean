import OciJanus.Audit.EventMapping

/-!
# The audit consumer

Delivery is at least once, a process may die at any point, and the reply of a commit may be lost.
The transaction of `Insert` is one step.
-/

namespace OciJanus.Audit.EventConsumer

open Verified.Json List Function
open Verified.Sha256 (Bytes)
open Verified.Rfc3339 Verified.Run Audit.EventMapping
open Audit.HashChain (UUID)

structure Message where
  event : Event
  messageID : String
  payload_parsed : event.raw.isSome

inductive Status where
  | ready
  | unacked
  | acked
  | deadLettered
  deriving DecidableEq

inductive Phase where
  | inserting (e : Entry)
  | returned (ok : Bool)
  | gone

structure Delivery where
  (msg replica : Nat)

structure Config where
  parseUUID : String → Option UUID
  maxRetries : Int

def Config.retryLimit (cfg : Config) : Int := if cfg.maxRetries = 0 then 3 else cfg.maxRetries

/-- The messages, their deliveries with the handlers, and the rows, each with its message. -/
structure System where
  msgs : List Message
  status : Nat → Status
  deliveries : List Delivery
  phase : Nat → Phase
  attached : Nat → Bool
  retries : Nat → String → Nat
  rows : List (Nat × Entry)

inductive Outcome where
  | failed
  | committed
  | replyLost

inductive Action where
  | publish (m : Message)
  | deliver (k replica : Nat) (now : Time)
  | insert (i : Nat) (outcome : Outcome) (now : Time)
  | settle (i : Nat)
  | disconnect (i : Nat)
  | crash (i : Nat)

def stored (now : Time) (e : Entry) : Option Entry :=
  if e.tenantID = UUID.nil ∨ Insert.checksPass (e.auditEvent none) = false then none
  else
    some { e with
      metadata := some (e.metadata.getD (.obj .nil))
      occurredAt := truncateMicro (if e.occurredAt = 0 then now else e.occurredAt) }

def handleEvent (cfg : Config) (now : Time) (ev : Event) : Phase :=
  match cfg.parseUUID ev.tenantID with
  | none => .returned true
  | some t =>
    match mapEvent now t ev with
    | none => .returned true
    | some e => .inserting e

def messageKey (m : Message) (i : Nat) : String :=
  if m.messageID ≠ "" then "mid:" ++ m.messageID
  else if m.event.id ≠ "" then "eid:" ++ m.event.id
  else "tag:" ++ toString i

namespace System

def empty : System where
  msgs := []
  status _ := .ready
  deliveries := []
  phase _ := .gone
  attached _ := false
  retries _ _ := 0
  rows := []

variable (s : System)

def setPhase (i : Nat) (p : Phase) : System := { s with phase := update s.phase i p }

def setStatus (k : Nat) (st : Status) : System :=
  { s with status := update s.status k st }

def setRetries (replica : Nat) (key : String) (n : Nat) : System :=
  { s with
    retries := update s.retries replica (update (s.retries replica) key n) }

def deliver (cfg : Config) (k replica : Nat) (now : Time) : System :=
  match s.msgs[k]?, s.status k with
  | some m, .ready =>
    { s.setStatus k .unacked with
      deliveries := s.deliveries ++ [⟨k, replica⟩]
      phase := update s.phase s.deliveries.length (handleEvent cfg now m.event)
      attached := update s.attached s.deliveries.length true }
  | _, _ => s

def insert (i : Nat) (outcome : Outcome) (now : Time) : System :=
  match s.phase i with
  | .inserting e =>
    match outcome, stored now e with
    | .committed, some row =>
      { s.setPhase i (.returned true) with rows := s.rows ++ [(i, row)] }
    | .replyLost, some row =>
      { s.setPhase i (.returned false) with rows := s.rows ++ [(i, row)] }
    | _, _ => s.setPhase i (.returned false)
  | _ => s

def report (i : Nat) (d : Delivery) (st : Status) : System :=
  if s.attached i then s.setStatus d.msg st else s

def settle (cfg : Config) (i : Nat) : System :=
  match s.deliveries[i]?, s.phase i with
  | some d, .returned ok =>
    match s.msgs[d.msg]? with
    | none => s
    | some m =>
      let key := messageKey m i
      let s' := s.setPhase i .gone
      if ok then (s'.setRetries d.replica key 0).report i d .acked
      else if cfg.retryLimit ≤ s.retries d.replica key then
        (s'.setRetries d.replica key 0).report i d .deadLettered
      else (s'.setRetries d.replica key (s.retries d.replica key + 1)).report i d .ready
  | _, _ => s

def detach (i : Nat) : System :=
  match s.deliveries[i]?, s.attached i, s.phase i with
  | some _, true, .gone => s
  | some d, true, _ =>
    { s.setStatus d.msg .ready with attached := update s.attached i false }
  | _, _, _ => s

def crash (i : Nat) : System :=
  match s.deliveries[i]? with
  | some d =>
    { (s.detach i).setPhase i .gone with
      retries := update s.retries d.replica fun _ => 0 }
  | none => s

end System

def System.step (cfg : Config) (s : System) : Action → System
  | .publish m => { s with msgs := s.msgs ++ [m] }
  | .deliver k replica now => s.deliver cfg k replica now
  | .insert i outcome now => s.insert i outcome now
  | .settle i => s.settle cfg i
  | .disconnect i => s.detach i
  | .crash i => s.crash i

def rowsFor (s : System) (t : UUID) (eventID : String) : List (Nat × Entry) :=
  s.rows.filter fun r => r.2.tenantID = t ∧ r.2.eventID = some eventID

def RecordedOnce (cfg : Config) (s : System) : Prop :=
  ∀ (k : Nat) (m : Message) (t : UUID), s.msgs[k]? = some m → s.status k = .acked →
    cfg.parseUUID m.event.tenantID = some t → (describe m.event).isSome →
      (rowsFor s t m.event.id).length = 1

def System.Active (s : System) (i : Nat) : Prop :=
  (∃ e, s.phase i = .inserting e) ∨ ∃ e, (i, e) ∈ s.rows

def RedeliversUnrecorded (cfg : Config) (s : System) : Action → Prop
  | .publish m => ∀ m' ∈ s.msgs, cfg.parseUUID m'.event.tenantID = cfg.parseUUID m.event.tenantID →
        m'.event.id ≠ m.event.id
  | .deliver k _ _ => ∀ (i : Nat) (d : Delivery), s.deliveries[i]? = some d → d.msg = k →
      ¬ s.Active i
  | _ => True

section Invariant

variable {cfg : Config} {s : System}

structure Inv (cfg : Config) (s : System) : Prop where
  nodup : (s.rows.map Prod.fst).Nodup
  origin : ∀ (i : Nat) (e : Entry), (i, e) ∈ s.rows →
    ∃ d m, s.deliveries[i]? = some d ∧ s.msgs[d.msg]? = some m ∧
    cfg.parseUUID m.event.tenantID = some e.tenantID ∧ e.eventID = some m.event.id
  spent : ∀ i e e', (i, e) ∈ s.rows → s.phase i ≠ .inserting e'
  inserting : ∀ i e, s.phase i = .inserting e → ∃ d m t now, s.deliveries[i]? = some d ∧
    s.msgs[d.msg]? = some m ∧ cfg.parseUUID m.event.tenantID = some t ∧
    mapEvent now t m.event = some e
  single : ∀ (i j : Nat) (d d' : Delivery), s.deliveries[i]? = some d →
    s.deliveries[j]? = some d' → d.msg = d'.msg →
    s.Active i → s.Active j → i = j
  returned : ∀ (i : Nat) (d : Delivery) (m : Message) (t : UUID), s.phase i = .returned true →
    s.deliveries[i]? = some d →
    s.msgs[d.msg]? = some m → cfg.parseUUID m.event.tenantID = some t →
    (describe m.event).isSome → ∃ e, (i, e) ∈ s.rows
  acked : ∀ (k : Nat) (m : Message) (t : UUID), s.msgs[k]? = some m → s.status k = .acked →
    cfg.parseUUID m.event.tenantID = some t → (describe m.event).isSome →
    ∃ (i : Nat) (d : Delivery) (e : Entry), s.deliveries[i]? = some d ∧ d.msg = k ∧ (i, e) ∈ s.rows
  keys : ∀ (k k' : Nat) (m m' : Message), s.msgs[k]? = some m → s.msgs[k']? = some m' →
    cfg.parseUUID m.event.tenantID = cfg.parseUUID m'.event.tenantID →
    m.event.id = m'.event.id → k = k'
  known : ∀ (i : Nat) (d : Delivery), s.deliveries[i]? = some d → ∃ m, s.msgs[d.msg]? = some m
  fresh : ∀ k : Nat, s.msgs[k]? = none → s.status k = .ready

theorem inv_empty : Inv cfg .empty where
  nodup := nodup_nil
  origin _ _ h := by cases h
  spent _ _ _ h := by cases h
  inserting _ _ h := by cases h
  single _ _ _ _ h := by cases h
  returned _ _ _ _ h := by cases h
  acked _ _ _ h := by cases h
  keys _ _ _ _ h := by cases h
  known _ _ h := by cases h
  fresh _ _ := rfl

variable {k i : Nat} {now : Time} {e : Entry}

theorem getElem?_snoc {α : Type*} {l : List α} {a b : α}
    (h : (l ++ [a])[k]? = some b) : l[k]? = some b ∨ (k = l.length ∧ b = a) := by
  rcases Nat.lt_or_ge k l.length with hlt | hge
  · rw [List.getElem?_append_left hlt] at h
    exact Or.inl h
  · rw [List.getElem?_append_right hge] at h
    obtain ⟨hlt, hb⟩ := List.getElem?_eq_some_iff.mp h
    simp only [length_singleton] at hlt
    exact Or.inr ⟨by omega, by simpa using hb.symm⟩

theorem getElem?_snoc_of {α : Type*} {l : List α} {a b : α} (h : l[k]? = some b) :
    (l ++ [a])[k]? = some b := by
  rw [List.getElem?_append_left (List.getElem?_eq_some_iff.mp h).1]
  exact h

theorem length_filter_eq_one {β : Type*} {l : List (Nat × β)} {p : Nat × β → Bool} {b : β}
    (hnodup : (l.map Prod.fst).Nodup) (hmem : (i, b) ∈ l) (hp : p (i, b) = true)
    (honly : ∀ x ∈ l, p x = true → x.1 = i) : (l.filter p).length = 1 := by
  have hsub : ((l.filter p).map Prod.fst).Nodup :=
    hnodup.sublist (filter_sublist.map Prod.fst)
  have hin : (i, b) ∈ l.filter p := mem_filter.mpr ⟨hmem, hp⟩
  have hall : ∀ x ∈ l.filter p, x.1 = i := fun x hx =>
    honly x (mem_filter.mp hx).1 (mem_filter.mp hx).2
  cases hl : l.filter p with
  | nil =>
    rw [hl] at hin
    cases hin
  | cons x rest =>
    rw [hl] at hsub hall
    cases rest with
    | nil => rfl
    | cons y rest =>
      have hx := hall x (by simp)
      have hy := hall y (by simp)
      simp [hx, hy] at hsub

theorem Inv.recordedOnce (h : Inv cfg s) : RecordedOnce cfg s := by
  intro k m t hm hstatus ht hmapped
  obtain ⟨i, d, e, hd, hk, hrow⟩ := h.acked k m t hm hstatus ht hmapped
  unfold rowsFor
  refine length_filter_eq_one h.nodup hrow ?_ ?_
  · obtain ⟨d', m', hd', hm', ht', hid⟩ := h.origin i e hrow
    rw [hd, Option.some.injEq] at hd'
    rw [← hd', hk, hm, Option.some.injEq] at hm'
    rw [← hm', ht, Option.some.injEq] at ht'
    simp [ht', hid, hm']
  · intro x hx hp
    simp only [decide_eq_true_eq] at hp
    obtain ⟨d', m', hd', hm', ht', hid⟩ := h.origin x.1 x.2 hx
    rw [hp.1] at ht'
    rw [hp.2, Option.some.injEq] at hid
    have hmsg : d'.msg = k := h.keys _ _ _ _ hm' hm (ht'.trans ht.symm) hid.symm
    exact h.single _ _ _ _ hd' hd (hmsg.trans hk.symm) (Or.inr ⟨x.2, hx⟩) (Or.inr ⟨e, hrow⟩)

theorem Inv.of_quiet {s' : System} (h : Inv cfg s) (hmsgs : s'.msgs = s.msgs)
    (hdeliveries : s'.deliveries = s.deliveries) (hrows : s'.rows = s.rows)
    (hphase : ∀ i, s'.phase i = s.phase i ∨ s'.phase i = .gone ∨ s'.phase i = .returned false)
    (hstatus : ∀ k, s'.status k = .acked → s.status k = .acked ∨
      ∃ (i : Nat) (d : Delivery), s.deliveries[i]? = some d ∧ d.msg = k ∧
        s.phase i = .returned true)
    (hfresh : ∀ k : Nat, s.msgs[k]? = none → s'.status k = .ready) : Inv cfg s' := by
  obtain ⟨msgs, status, deliveries, phase, attached, retries, rows⟩ := s'
  cases hmsgs
  cases hdeliveries
  cases hrows
  have hinserting : ∀ i e, phase i = .inserting e → s.phase i = .inserting e := by
    intro i e hi
    rcases hphase i with hp | hp | hp
    · exact hp.symm.trans hi
    · cases hp.symm.trans hi
    · cases hp.symm.trans hi
  have hactive : ∀ i, ((∃ e, phase i = .inserting e) ∨ ∃ e, (i, e) ∈ s.rows) → s.Active i :=
    fun i => Or.imp_left fun ⟨e, hi⟩ => ⟨e, hinserting i e hi⟩
  refine ⟨h.nodup, h.origin, fun i e e' hi hp => h.spent i e e' hi (hinserting i e' hp),
    fun i e hi => h.inserting i e (hinserting i e hi), ?_, ?_, ?_, h.keys, h.known, hfresh⟩
  · intro i j d d' hd hd' hmsg hi hj
    exact h.single i j d d' hd hd' hmsg (hactive i hi) (hactive j hj)
  · intro i d m t hi hd hm
    rcases hphase i with hp | hp | hp
    · exact h.returned i d m t (hp.symm.trans hi) hd hm
    · cases hp.symm.trans hi
    · cases hp.symm.trans hi
  · intro k m t hm hk ht hmapped
    rcases hstatus k hk with hk | ⟨i, d, hd, hdk, hi⟩
    · exact h.acked k m t hm hk ht hmapped
    · -- The handler that is acknowledged has written its row.
      obtain ⟨e, he⟩ := h.returned i d m t hi hd (by rw [hdk]; exact hm) ht hmapped
      exact ⟨i, d, e, hd, hdk, he⟩

theorem Inv.publish (h : Inv cfg s) {m : Message}
    (hnew : ∀ m' ∈ s.msgs, cfg.parseUUID m'.event.tenantID = cfg.parseUUID m.event.tenantID →
      m'.event.id ≠ m.event.id) : Inv cfg { s with msgs := s.msgs ++ [m] } := by
  have hkeep : ∀ (k : Nat) (m' : Message), s.msgs[k]? = some m' →
      (s.msgs ++ [m])[k]? = some m' := fun _ _ hk => getElem?_snoc_of hk
  -- A delivery is of a message that was there.
  have hdelivered : ∀ (i : Nat) (d : Delivery) (m' : Message), s.deliveries[i]? = some d →
      (s.msgs ++ [m])[d.msg]? = some m' → s.msgs[d.msg]? = some m' := by
    intro i d m' hd hm'
    obtain ⟨m₀, hm₀⟩ := h.known i d hd
    rw [hkeep _ _ hm₀] at hm'
    rw [hm₀, hm']
  have hfresh : s.status s.msgs.length = .ready :=
    h.fresh _ (List.getElem?_eq_none (Nat.le_refl _))
  refine ⟨h.nodup, ?_, h.spent, ?_, h.single, ?_, ?_, ?_, ?_, ?_⟩
  · intro i e hi
    obtain ⟨d, m', hd, hm', hrest⟩ := h.origin i e hi
    exact ⟨d, m', hd, hkeep _ _ hm', hrest⟩
  · intro i e hi
    obtain ⟨d, m', t, now, hd, hm', hrest⟩ := h.inserting i e hi
    exact ⟨d, m', t, now, hd, hkeep _ _ hm', hrest⟩
  · intro i d m' t hi hd hm'
    exact h.returned i d m' t hi hd (hdelivered i d m' hd hm')
  · intro k m' t hm' hk
    rcases getElem?_snoc hm' with hm' | ⟨rfl, _⟩
    · exact h.acked k m' t hm' hk
    · cases hfresh.symm.trans hk
  · intro k k' m₁ m₂ h₁ h₂ htenant hid
    rcases getElem?_snoc h₁ with hold₁ | ⟨rfl, rfl⟩
    · rcases getElem?_snoc h₂ with hold₂ | ⟨rfl, rfl⟩
      · exact h.keys k k' m₁ m₂ hold₁ hold₂ htenant hid
      · exact absurd hid (hnew m₁ (mem_of_getElem? hold₁) htenant)
    · rcases getElem?_snoc h₂ with hold₂ | ⟨rfl, _⟩
      · exact absurd hid.symm (hnew m₂ (mem_of_getElem? hold₂) htenant.symm)
      · rfl
  · intro i d hd
    obtain ⟨m', hm'⟩ := h.known i d hd
    exact ⟨m', hkeep _ _ hm'⟩
  · intro k hk
    exact h.fresh k (List.getElem?_eq_none_iff.mpr
      (Nat.le_of_succ_le (by simpa using List.getElem?_eq_none_iff.mp hk)))

theorem handleEvent_returned {ev : Event} {ok : Bool}
    (h : handleEvent cfg now ev = .returned ok) {t : UUID}
    (ht : cfg.parseUUID ev.tenantID = some t) : describe ev = none := by
  unfold handleEvent at h
  cases hmap : mapEvent now t ev with
  | none => exact Option.map_eq_none_iff.mp hmap
  | some e => simp [ht, hmap] at h

theorem handleEvent_inserting {ev : Event} (h : handleEvent cfg now ev = .inserting e) :
    ∃ t, cfg.parseUUID ev.tenantID = some t ∧ mapEvent now t ev = some e := by
  unfold handleEvent at h
  cases ht : cfg.parseUUID ev.tenantID with
  | none => simp [ht] at h
  | some t =>
    cases hmap : mapEvent now t ev with
    | none => simp [ht, hmap] at h
    | some e' => exact ⟨t, rfl, by simpa [ht, hmap] using h⟩

theorem Inv.start (h : Inv cfg s) {replica : Nat} {m : Message} (hm : s.msgs[k]? = some m)
    (hidle : ∀ (i : Nat) (d : Delivery), s.deliveries[i]? = some d → d.msg = k → ¬ s.Active i) :
    Inv cfg { s.setStatus k .unacked with
      deliveries := s.deliveries ++ [⟨k, replica⟩]
      phase := update s.phase s.deliveries.length (handleEvent cfg now m.event)
      attached := update s.attached s.deliveries.length true } := by
  have hne : ∀ (i : Nat) (d : Delivery), s.deliveries[i]? = some d → i ≠ s.deliveries.length := by
    intro i d hd heq
    have hlt := (List.getElem?_eq_some_iff.mp hd).1
    omega
  have hactive : ∀ (i : Nat) (d : Delivery), s.deliveries[i]? = some d →
      ((∃ e, update s.phase s.deliveries.length (handleEvent cfg now m.event) i =
        .inserting e) ∨ ∃ e, (i, e) ∈ s.rows) → s.Active i := by
    intro i d hd
    rw [update_of_ne (hne i d hd)]
    exact id
  refine ⟨h.nodup, ?_, ?_, ?_, ?_, ?_, ?_, h.keys, ?_, ?_⟩
  · intro i e hi
    obtain ⟨d, m', hd, hrest⟩ := h.origin i e hi
    exact ⟨d, m', getElem?_snoc_of hd, hrest⟩
  · -- The new handler has no row.
    intro i e e' hi hp
    obtain ⟨d, _, hd, _⟩ := h.origin i e hi
    exact h.spent i e e' hi ((update_of_ne (hne i d hd) _ _).symm.trans hp)
  · intro i e hi
    rcases update_cases hi with ⟨rfl, hnew⟩ | ⟨_, hold⟩
    · obtain ⟨t, ht, hmap⟩ := handleEvent_inserting hnew
      exact ⟨⟨k, replica⟩, m, t, now, by simp, hm, ht, hmap⟩
    · obtain ⟨d, m', t, now', hd, hrest⟩ := h.inserting i e hold
      exact ⟨d, m', t, now', getElem?_snoc_of hd, hrest⟩
  · intro i j d d' hd hd' hmsg hi hj
    rcases getElem?_snoc hd with hd | ⟨rfl, rfl⟩
    · rcases getElem?_snoc hd' with hd' | ⟨rfl, rfl⟩
      · exact h.single i j d d' hd hd' hmsg (hactive i d hd hi) (hactive j d' hd' hj)
      · exact absurd (hactive i d hd hi) (hidle i d hd hmsg)
    · rcases getElem?_snoc hd' with hd' | ⟨rfl, rfl⟩
      · exact absurd (hactive j d' hd' hj) (hidle j d' hd' hmsg.symm)
      · rfl
  · intro i d m' t hi hd hm' ht hmapped
    rcases getElem?_snoc hd with hd | ⟨rfl, rfl⟩
    · exact h.returned i d m' t ((update_of_ne (hne i d hd) _ _).symm.trans hi) hd hm' ht
        hmapped
    · -- Nothing is recorded only for an event that is not mapped.
      cases hm.symm.trans hm'
      rw [handleEvent_returned ((update_self _ _ _).symm.trans hi) ht] at hmapped
      cases hmapped
  · intro k' m' t hm' hk' ht hmapped
    rcases update_cases hk' with ⟨_, hacked⟩ | ⟨_, hacked⟩
    · cases hacked
    · obtain ⟨i, d, e, hd, hrest⟩ := h.acked k' m' t hm' hacked ht hmapped
      exact ⟨i, d, e, getElem?_snoc_of hd, hrest⟩
  · intro i d hd
    rcases getElem?_snoc hd with hd | ⟨rfl, rfl⟩
    · exact h.known i d hd
    · exact ⟨m, hm⟩
  · intro k' hk'
    have hother : k' ≠ k := by
      rintro rfl
      cases hm.symm.trans hk'
    exact (update_of_ne hother _ _).trans (h.fresh k' hk')

theorem Inv.deliver (h : Inv cfg s) {replica : Nat}
    (hidle : ∀ (i : Nat) (d : Delivery), s.deliveries[i]? = some d → d.msg = k → ¬ s.Active i) :
    Inv cfg (s.deliver cfg k replica now) := by
  unfold System.deliver
  cases hm : s.msgs[k]? with
  | none => exact h
  | some m =>
    cases hk : s.status k with
    | unacked | acked | deadLettered => exact h
    | ready => exact h.start hm hidle

theorem stored_eq_some {row : Entry} (h : stored now e = some row) :
    row.tenantID = e.tenantID ∧ (e.eventID.isSome → row.eventID = e.eventID) := by
  unfold stored at h
  rw [Option.ite_none_left_eq_some, Option.some.injEq] at h
  rw [← h.2]
  refine ⟨rfl, ?_⟩
  cases hmeta : e.metadata with
  | none | some => simp [Entry.eventID, hmeta]

theorem Inv.commit (h : Inv cfg s) {row : Entry} {ok : Bool}
    (hi : s.phase i = .inserting e) (hrow : stored now e = some row) :
    Inv cfg { s.setPhase i (.returned ok) with rows := s.rows ++ [(i, row)] } := by
  obtain ⟨d, m, t, now', hd, hm, ht, hmap⟩ := h.inserting i e hi
  obtain ⟨htenant, hevent⟩ := mapEvent_eventID hmap m.payload_parsed
  obtain ⟨hrowTenant, hrowEvent⟩ := stored_eq_some hrow
  have hinserting : ∀ j e', update s.phase i (.returned ok) j = .inserting e' →
      j ≠ i ∧ s.phase j = .inserting e' := by
    intro j e' hj
    rcases update_cases hj with ⟨_, hj⟩ | hj
    · cases hj
    · exact hj
  have hmem : ∀ j e', (j, e') ∈ s.rows ++ [(i, row)] → (j, e') ∈ s.rows ∨ j = i ∧ e' = row := by
    intro j e' hj
    simpa using hj
  have hactive : ∀ j, ((∃ e', update s.phase i (.returned ok) j = .inserting e') ∨
      ∃ e', (j, e') ∈ s.rows ++ [(i, row)]) → s.Active j := by
    rintro j (⟨e', hj⟩ | ⟨e', hj⟩)
    · exact Or.inl ⟨e', (hinserting j e' hj).2⟩
    · rcases hmem j e' hj with hj | ⟨rfl, _⟩
      · exact Or.inr ⟨e', hj⟩
      · exact Or.inl ⟨e, hi⟩
  refine ⟨?_, ?_, ?_, fun j e' hj => h.inserting j e' (hinserting j e' hj).2, ?_, ?_, ?_, h.keys,
    h.known, h.fresh⟩
  · show ((s.rows ++ [(i, row)]).map Prod.fst).Nodup
    rw [map_append, map_singleton]
    refine h.nodup.append (nodup_singleton i) ?_
    intro j hj hji
    obtain ⟨⟨j', e'⟩, hmem', rfl⟩ := mem_map.mp hj
    obtain rfl : j' = i := mem_singleton.mp hji
    exact h.spent j' e' e hmem' hi
  · intro j e' hj
    rcases hmem j e' hj with hj | ⟨rfl, rfl⟩
    · exact h.origin j e' hj
    · refine ⟨d, m, hd, hm, ?_, ?_⟩
      · rw [hrowTenant, htenant, ht]
      · rw [hrowEvent (by rw [hevent]; rfl), hevent]
  · intro j e' e'' hj hp
    obtain ⟨hne, hold⟩ := hinserting j e'' hp
    rcases hmem j e' hj with hj | ⟨heq, _⟩
    · exact h.spent j e' e'' hj hold
    · exact hne heq
  · intro j j' d₁ d₂ h₁ h₂ hmsg hj hj'
    exact h.single j j' d₁ d₂ h₁ h₂ hmsg (hactive j hj) (hactive j' hj')
  · intro j d' m' t' hj hd' hm' ht' hmapped
    rcases update_cases hj with ⟨rfl, _⟩ | ⟨_, hold⟩
    · exact ⟨row, mem_append_right _ mem_cons_self⟩
    · obtain ⟨e', he'⟩ := h.returned j d' m' t' hold hd' hm' ht' hmapped
      exact ⟨e', mem_append_left _ he'⟩
  · intro k m' t' hm' hk ht' hmapped
    obtain ⟨j, d', e', hd', hdk, he'⟩ := h.acked k m' t' hm' hk ht' hmapped
    exact ⟨j, d', e', hd', hdk, mem_append_left _ he'⟩

theorem Inv.fail (h : Inv cfg s) (i : Nat) : Inv cfg (s.setPhase i (.returned false)) := by
  refine h.of_quiet rfl rfl rfl ?_ (fun _ hk => Or.inl hk) h.fresh
  intro j
  by_cases heq : j = i
  · rw [heq]
    exact Or.inr (Or.inr (update_self i _ s.phase))
  · exact Or.inl (update_of_ne heq _ _)

theorem Inv.insert (h : Inv cfg s) (i : Nat) (outcome : Outcome) (now : Time) :
    Inv cfg (s.insert i outcome now) := by
  unfold System.insert
  cases hi : s.phase i with
  | returned | gone => exact h
  | inserting e =>
    dsimp only
    cases hrow : stored now e with
    | none => cases outcome <;> exact h.fail i
    | some row =>
      cases outcome with
      | failed => exact h.fail i
      | committed | replyLost => exact h.commit hi hrow

theorem Inv.done {s' : System} (h : Inv cfg s) {d : Delivery} {st : Status}
    (hd : s.deliveries[i]? = some d) (hmsgs : s'.msgs = s.msgs)
    (hdeliveries : s'.deliveries = s.deliveries) (hrows : s'.rows = s.rows)
    (hphase : s'.phase = s.phase ∨ s'.phase = update s.phase i .gone)
    (hstatus : s'.status = s.status ∨ s'.status = update s.status d.msg st)
    (hst : st = .acked → s.phase i = .returned true) : Inv cfg s' := by
  refine h.of_quiet hmsgs hdeliveries hrows ?_ ?_ ?_
  · intro j
    rcases hphase with hp | hp
    · exact Or.inl (by rw [hp])
    · rw [hp]
      by_cases heq : j = i
      · rw [heq]
        exact Or.inr (Or.inl (update_self i _ s.phase))
      · exact Or.inl (update_of_ne heq _ _)
  · intro k hk
    rcases hstatus with hs | hs
    · exact Or.inl (by rw [← hs]; exact hk)
    · rw [hs] at hk
      rcases update_cases hk with ⟨heq, hk⟩ | ⟨_, hk⟩
      · exact Or.inr ⟨i, d, hd, heq.symm, hst hk⟩
      · exact Or.inl hk
  · intro k hk
    rcases hstatus with hs | hs
    · rw [hs]
      exact h.fresh k hk
    · obtain ⟨m, hm⟩ := h.known i d hd
      have hne : k ≠ d.msg := by
        rintro rfl
        cases hm.symm.trans hk
      rw [hs, update_of_ne hne]
      exact h.fresh k hk

theorem Inv.report (h : Inv cfg s) {d : Delivery} {st : Status} {key : String} {n : Nat}
    (hd : s.deliveries[i]? = some d) (hst : st = .acked → s.phase i = .returned true) :
    Inv cfg (((s.setPhase i .gone).setRetries d.replica key n).report i d st) := by
  unfold System.report
  split_ifs
  · exact h.done hd rfl rfl rfl (Or.inr rfl) (Or.inr rfl) hst
  · exact h.done hd rfl rfl rfl (Or.inr rfl) (Or.inl rfl) hst

theorem Inv.settle (h : Inv cfg s) (i : Nat) : Inv cfg (s.settle cfg i) := by
  unfold System.settle
  cases hd : s.deliveries[i]? with
  | none => exact h
  | some d =>
    cases hi : s.phase i with
    | inserting | gone => exact h
    | returned ok =>
      dsimp only
      cases hm : s.msgs[d.msg]? with
      | none => exact h
      | some m =>
        cases ok with
        | true => exact h.report hd fun _ => hi
        | false =>
          show Inv cfg (if cfg.retryLimit ≤ s.retries d.replica (messageKey m i) then _ else _)
          split_ifs
          · exact h.report hd fun hst => by cases hst
          · exact h.report hd fun hst => by cases hst

theorem Inv.detach (h : Inv cfg s) (i : Nat) : Inv cfg (s.detach i) := by
  unfold System.detach
  cases hd : s.deliveries[i]? with
  | none => exact h
  | some d =>
    cases hatt : s.attached i with
    | false => exact h
    | true =>
      have hready : Inv cfg { s.setStatus d.msg .ready with
          attached := update s.attached i false } :=
        h.done hd rfl rfl rfl (Or.inl rfl) (Or.inr rfl) fun hst => by cases hst
      cases hi : s.phase i with
      | gone => exact h
      | inserting | returned => exact hready

theorem detach_deliveries (i : Nat) : (s.detach i).deliveries = s.deliveries := by
  unfold System.detach
  split <;> rfl

theorem Inv.crash (h : Inv cfg s) (i : Nat) : Inv cfg (s.crash i) := by
  unfold System.crash
  cases hd : s.deliveries[i]? with
  | none => exact h
  | some d =>
    refine (h.detach i).done (d := d) ?_ rfl rfl rfl (Or.inr rfl) (Or.inl rfl)
      fun hst : Status.ready = .acked => by cases hst
    rw [detach_deliveries]
    exact hd

theorem Inv.step (h : Inv cfg s) {a : Action} (ha : RedeliversUnrecorded cfg s a) :
    Inv cfg (s.step cfg a) := by
  cases a with
  | publish m => exact h.publish ha
  | deliver k replica now => exact h.deliver ha
  | insert i outcome now => exact h.insert i outcome now
  | settle i => exact h.settle i
  | disconnect i => exact h.detach i
  | crash i => exact h.crash i

/-- **Each event is recorded once**, if redeliveries follow handlers without a row. -/
theorem events_recorded_once (cfg : Config) (acts : List Action)
    (h : Guarded (System.step cfg) (RedeliversUnrecorded cfg) .empty acts) :
    RecordedOnce cfg (run (System.step cfg) .empty acts) := by
  have hinv : Inv cfg (run (System.step cfg) .empty acts) :=
    run_invariant (fun _ _ hs ha => hs.step ha) inv_empty h
  exact hinv.recordedOnce

end Invariant

def sampleTenant : UUID := Vector.replicate 16 7

def sampleConfig : Config where
  parseUUID text := if text = "t" then some sampleTenant else none
  maxRetries := 0

def samplePush : Message where
  event := ⟨"ev-1", .pushCompleted, "t", 1000,
    Verified.Utf8.stringBytes "\x7b\"repo_id\":\"r\"\x7d"⟩
  messageID := "ev-1"
  payload_parsed := by decide +kernel

def retried : List Action :=
  [.publish samplePush, .deliver 0 0 0, .insert 0 .failed 0, .settle 0,
    .deliver 0 0 0, .insert 1 .committed 0, .settle 1]

theorem events_recorded_once_retried :
    Guarded (System.step sampleConfig) (RedeliversUnrecorded sampleConfig) .empty retried ∧
    (run (System.step sampleConfig) .empty retried).status 0 = .acked ∧
    RecordedOnce sampleConfig (run (System.step sampleConfig) .empty retried) := by
  have h : Guarded (System.step sampleConfig) (RedeliversUnrecorded sampleConfig) .empty
      retried := by
    refine ⟨fun m' hm' => absurd hm' not_mem_nil, fun i d hd => (by cases hd), trivial,
      trivial, ?_, trivial, trivial, trivial⟩
    intro i d hd _ hactive
    have hi : i = 0 := by
      have hlt := (List.getElem?_eq_some_iff.mp hd).1
      exact Nat.lt_one_iff.mp hlt
    rw [hi] at hactive
    rcases hactive with ⟨e, he⟩ | ⟨e, he⟩
    · cases he
    · cases he
  exact ⟨h, by decide +kernel, events_recorded_once sampleConfig retried h⟩

def crashed : List Action :=
  [.publish samplePush, .deliver 0 0 0, .insert 0 .committed 0, .crash 0,
    .deliver 0 1 0, .insert 1 .committed 0, .settle 1]

def replyLost : List Action :=
  [.publish samplePush, .deliver 0 0 0, .insert 0 .replyLost 0, .settle 0,
    .deliver 0 0 0, .insert 1 .committed 0, .settle 1]

theorem not_recordedOnce {s : System} (hmsg : s.msgs[0]? = some samplePush)
    (hstatus : s.status 0 = .acked) (htwo : (rowsFor s sampleTenant "ev-1").length = 2) :
    ¬ RecordedOnce sampleConfig s := by
  intro h
  have hone : (rowsFor s sampleTenant "ev-1").length = 1 :=
    h 0 samplePush sampleTenant hmsg hstatus rfl (by decide +kernel)
  omega

theorem redelivered_event_recorded_twice :
    ((run (System.step sampleConfig) .empty crashed).status 0 = .acked ∧
      (rowsFor (run (System.step sampleConfig) .empty crashed) sampleTenant "ev-1").length = 2 ∧
      ¬ RecordedOnce sampleConfig (run (System.step sampleConfig) .empty crashed)) ∧
    ((run (System.step sampleConfig) .empty replyLost).status 0 = .acked ∧
      (rowsFor (run (System.step sampleConfig) .empty replyLost) sampleTenant "ev-1").length = 2 ∧
      ¬ RecordedOnce sampleConfig (run (System.step sampleConfig) .empty replyLost)) := by
  constructor
  · have hstatus : (run (System.step sampleConfig) .empty crashed).status 0 = .acked := by
      decide +kernel
    have htwo : (rowsFor (run (System.step sampleConfig) .empty crashed) sampleTenant
        "ev-1").length = 2 := by decide +kernel
    exact ⟨hstatus, htwo, not_recordedOnce rfl hstatus htwo⟩
  · have hstatus : (run (System.step sampleConfig) .empty replyLost).status 0 = .acked := by
      decide +kernel
    have htwo : (rowsFor (run (System.step sampleConfig) .empty replyLost) sampleTenant
        "ev-1").length = 2 := by decide +kernel
    exact ⟨hstatus, htwo, not_recordedOnce rfl hstatus htwo⟩

end OciJanus.Audit.EventConsumer
