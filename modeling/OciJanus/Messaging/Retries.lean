import OciJanus.Verified.Run
import OciJanus.Verified.Sha256

/-!
# Bounded retries

Failures are counted by the message id, else by the id in the body, else by the delivery tag.
-/

namespace OciJanus.Messaging.Retries

open Verified.Run Verified.Sha256 List Function

structure Message where
  messageID : String
  body : Bytes

structure Event where
  id : String

def retryLimit (maxRetries : Int) : Int := if maxRetries = 0 then 3 else maxRetries

def messageKey (m : Message) (event : Event) (deliveryTag : Nat) : String :=
  if m.messageID ≠ "" then "mid:" ++ m.messageID
  else if event.id ≠ "" then "eid:" ++ event.id
  else "tag:" ++ toString deliveryTag

structure Consumer where
  retries : String → Option Int
  nextTag : Nat
  handed : List (Nat × Nat)
  (acked deadLettered : List Nat)

structure Delivery where
  msg : Nat
  ok : Bool

namespace Consumer

def empty : Consumer := ⟨fun _ => none, 0, [], [], []⟩

def calls (c : Consumer) (i : Nat) : Nat := c.handed.countP fun call => call.1 = i

def Settled (c : Consumer) (i : Nat) : Prop := i ∈ c.acked ∨ i ∈ c.deadLettered
  deriving Decidable

def handleEvent (limit : Int) (c : Consumer) (i : Nat) (key : String) (ok : Bool) : Consumer :=
  let retries := (c.retries key).getD 0
  let called := { c with nextTag := c.nextTag + 1, handed := (i, c.nextTag) :: c.handed }
  if ok then
    { called with retries := update c.retries key none, acked := i :: c.acked }
  else if limit ≤ retries then
    { called with
      retries := update c.retries key none
      deadLettered := i :: c.deadLettered }
  else { called with retries := update c.retries key (some (retries + 1)) }

section Handle

variable (unmarshal : Bytes → Option Event) (limit : Int)

def handle (c : Consumer) (i : Nat) (m : Message) (ok : Bool) : Consumer :=
  match unmarshal m.body with
  | none => { c with nextTag := c.nextTag + 1, deadLettered := i :: c.deadLettered }
  | some event => c.handleEvent limit i (messageKey m event c.nextTag) ok

def step (msgs : List Message) (c : Consumer) (d : Delivery) : Consumer :=
  match msgs[d.msg]? with
  | none => c
  | some m => if c.Settled d.msg then c else c.handle unmarshal limit d.msg m d.ok

end Handle

end Consumer

section Contract

variable (unmarshal : Bytes → Option Event) (limit : Int) (msgs : List Message)

def Bounded (i : Nat) : Prop :=
  ∀ schedule : List Delivery, (∀ d ∈ schedule, d.msg = i → d.ok = false) →
    ((run (Consumer.step unmarshal limit msgs) .empty schedule).calls i : Int) ≤ limit + 1 ∧
      (((run (Consumer.step unmarshal limit msgs) .empty schedule).calls i : Int) = limit + 1 →
        (run (Consumer.step unmarshal limit msgs) .empty schedule).deadLettered.count i = 1)

def Cleared (i : Nat) (m : Message) : Prop :=
  ∀ schedule : List Delivery, i ∈ (run (Consumer.step unmarshal limit msgs) .empty schedule).acked →
      (run (Consumer.step unmarshal limit msgs) .empty schedule).acked.count i = 1 ∧
      i ∉ (run (Consumer.step unmarshal limit msgs) .empty schedule).deadLettered ∧
      ∀ tag, (i, tag) ∈ (run (Consumer.step unmarshal limit msgs) .empty schedule).handed →
        ∀ event, unmarshal m.body = some event →
          (run (Consumer.step unmarshal limit msgs) .empty schedule).retries
            (messageKey m event tag) = none

def stableKey (m : Message) (event : Event) : Option String :=
  if m.messageID ≠ "" then some ("mid:" ++ m.messageID)
  else if event.id ≠ "" then some ("eid:" ++ event.id)
  else none

def OwnKey (i : Nat) (m : Message) : Prop :=
  ∀ event, unmarshal m.body = some event → ∃ key, stableKey m event = some key ∧
      ∀ j m' event', msgs[j]? = some m' → unmarshal m'.body = some event' →
        stableKey m' event' = some key → j = i

end Contract

variable {key : String}

theorem messageKey_of_stable {m : Message} {event : Event}
    (h : stableKey m event = some key) (tag : Nat) : messageKey m event tag = key := by
  unfold stableKey at h
  unfold messageKey
  split_ifs at h ⊢
  · exact Option.some.inj h
  · exact Option.some.inj h

theorem messageKey_of_unstable {m : Message} {event : Event} (h : stableKey m event = none)
    (tag : Nat) : messageKey m event tag = "tag:" ++ toString tag := by
  unfold stableKey at h
  unfold messageKey
  split_ifs at h ⊢
  rfl

theorem stableKey_ne_tag {m : Message} {event : Event}
    (h : stableKey m event = some key) (tag : Nat) : "tag:" ++ toString tag ≠ key := by
  unfold stableKey at h
  rintro rfl
  split_ifs at h
  · have hlist := congrArg String.toList (Option.some.inj h)
    simp at hlist
  · have hlist := congrArg String.toList (Option.some.inj h)
    simp at hlist

theorem tag_inj {a b : Nat} (h : "tag:" ++ toString a = "tag:" ++ toString b) : a = b := by
  have hlist := congrArg String.toList h
  rw [String.toList_append, String.toList_append, append_cancel_left_eq] at hlist
  have hdigits : ∀ n : Nat, (toString n).toList = Nat.toDigits 10 n :=
    fun n => String.toList_ofList
  rw [hdigits, hdigits] at hlist
  have hvalue := congrArg (fun ds => Nat.ofDigitChars 10 ds 0) hlist
  rwa [Nat.ofDigitChars_toDigits (by decide) (by decide),
    Nat.ofDigitChars_toDigits (by decide) (by decide)] at hvalue

theorem messageKey_ne {m : Message} {event : Event} (tag : Nat)
    (h : stableKey m event ≠ some key) {m' : Message} {event' : Event}
    (hkey : stableKey m' event' = some key) : messageKey m event tag ≠ key := by
  cases hstable : stableKey m event with
  | none =>
    rw [messageKey_of_unstable hstable]
    exact stableKey_ne_tag hkey tag
  | some key' =>
    rw [messageKey_of_stable hstable]
    rintro rfl
    exact h hstable

inductive Course (limit : Int) : Option Int → Nat → Nat → Nat → Prop
  | pending {v : Option Int} {n : Nat} : v.getD 0 = n → (n : Int) ≤ limit → Course limit v n 0 0
  | acked {n : Nat} : (n : Int) ≤ limit + 1 → Course limit none n 1 0
  | deadLettered {n : Nat} : (n : Int) = limit + 1 → Course limit none n 0 1

def Consumer.Course (limit : Int) (key : String) (i : Nat) (c : Consumer) : Prop :=
  Retries.Course limit (c.retries key) (c.calls i) (c.acked.count i) (c.deadLettered.count i)

section Sufficient

variable {unmarshal : Bytes → Option Event} {limit : Int} {msgs : List Message}
  {c : Consumer} {i : Nat} {key : String}

theorem calls_cons {c' : Consumer} {j tag : Nat} (h : c'.handed = (j, tag) :: c.handed) :
    c'.calls i = c.calls i + if j = i then 1 else 0 := by
  unfold Consumer.calls
  rw [h, countP_cons]
  simp

theorem handed_handleEvent (limit : Int) (c : Consumer) (j : Nat) (key' : String) (ok : Bool) :
    (c.handleEvent limit j key' ok).handed = (j, c.nextTag) :: c.handed := by
  unfold Consumer.handleEvent
  dsimp only
  split_ifs <;> rfl

theorem handleEvent_other (limit : Int) (c : Consumer) {j : Nat} (hj : j ≠ i) (key' : String)
    (ok : Bool) :
    (c.handleEvent limit j key' ok).calls i = c.calls i ∧
      (c.handleEvent limit j key' ok).acked.count i = c.acked.count i ∧
      (c.handleEvent limit j key' ok).deadLettered.count i = c.deadLettered.count i := by
  refine ⟨?_, ?_, ?_⟩
  · rw [calls_cons (handed_handleEvent limit c j key' ok), if_neg hj, Nat.add_zero]
  · unfold Consumer.handleEvent
    dsimp only
    split_ifs
    · exact count_cons_of_ne hj
    · rfl
    · rfl
  · unfold Consumer.handleEvent
    dsimp only
    split_ifs
    · rfl
    · exact count_cons_of_ne hj
    · rfl

theorem retries_handleEvent (limit : Int) (c : Consumer) (j : Nat) {key' : String}
    (hkey : key ≠ key') (ok : Bool) :
    (c.handleEvent limit j key' ok).retries key = c.retries key := by
  unfold Consumer.handleEvent
  dsimp only
  split_ifs <;> exact update_of_ne hkey _ _

theorem handleEvent_self (h : c.Course limit key i) (hpending : ¬ c.Settled i) (ok : Bool) :
    (c.handleEvent limit i key ok).Course limit key i := by
  have hcalls : (c.handleEvent limit i key ok).calls i = c.calls i + 1 := by
    rw [calls_cons (handed_handleEvent limit c i key ok), if_pos rfl]
  have hacked : c.acked.count i = 0 :=
    count_eq_zero.mpr fun hmem => hpending (Or.inl hmem)
  have hdead : c.deadLettered.count i = 0 :=
    count_eq_zero.mpr fun hmem => hpending (Or.inr hmem)
  unfold Consumer.Course at h ⊢
  rw [hacked, hdead] at h
  rw [hcalls]
  generalize hv : c.retries key = v at h
  generalize c.calls i = n at h
  cases h with
  | pending hcount hle =>
    unfold Consumer.handleEvent
    dsimp only
    rw [hv, hcount]
    by_cases hok : ok = true
    · rw [if_pos hok]
      dsimp only
      rw [update_self, count_cons_self, hacked, hdead]
      exact .acked (by omega)
    rw [if_neg hok]
    by_cases hlimit : limit ≤ n
    · rw [if_pos hlimit]
      dsimp only
      rw [update_self, count_cons_self, hacked, hdead]
      exact .deadLettered (by omega)
    · rw [if_neg hlimit]
      dsimp only
      rw [update_self, hacked, hdead]
      exact .pending (by simp) (by omega)

variable {m : Message} {event : Event}

theorem course_step (hm : msgs[i]? = some m) (hevent : unmarshal m.body = some event)
    (hstable : stableKey m event = some key)
    (hown : ∀ j m' event', msgs[j]? = some m' → unmarshal m'.body = some event' →
      stableKey m' event' = some key → j = i) (h : c.Course limit key i) (d : Delivery) :
    (c.step unmarshal limit msgs d).Course limit key i := by
  unfold Consumer.step
  cases hd : msgs[d.msg]? with
  | none => exact h
  | some m' =>
    dsimp only
    by_cases hsettled : c.Settled d.msg
    · rw [if_pos hsettled]
      exact h
    rw [if_neg hsettled]
    unfold Consumer.handle
    by_cases hi : d.msg = i
    · rw [hi] at hd hsettled ⊢
      rw [hm, Option.some.injEq] at hd
      subst hd
      rw [hevent]
      dsimp only
      rw [messageKey_of_stable hstable]
      exact handleEvent_self h hsettled d.ok
    · cases hevent' : unmarshal m'.body with
      | none =>
        unfold Consumer.Course at h ⊢
        dsimp only
        rw [count_cons_of_ne hi]
        exact h
      | some event' =>
        dsimp only
        have hne : key ≠ messageKey m' event' c.nextTag :=
          (messageKey_ne c.nextTag (fun hsame => hi (hown d.msg m' event' hd hevent' hsame))
            hstable).symm
        obtain ⟨hcalls, hacked, hdead⟩ :=
          handleEvent_other limit c hi (messageKey m' event' c.nextTag) d.ok
        unfold Consumer.Course at h ⊢
        rw [retries_handleEvent limit c d.msg hne, hcalls, hacked, hdead]
        exact h

theorem mem_acked_run (c : Consumer) (schedule : List Delivery)
    (h : i ∈ (run (Consumer.step unmarshal limit msgs) c schedule).acked) :
    i ∈ c.acked ∨ ∃ d ∈ schedule, d.msg = i ∧ d.ok = true := by
  induction schedule generalizing c with
  | nil => exact Or.inl h
  | cons d schedule ih =>
    rw [run_cons] at h
    rcases ih _ h with hmem | ⟨d', hd', hok⟩
    · have hstep : i ∈ c.acked ∨ d.msg = i ∧ d.ok = true := by
        unfold Consumer.step at hmem
        split at hmem
        · exact Or.inl hmem
        · split_ifs at hmem
          · exact Or.inl hmem
          · unfold Consumer.handle at hmem
            split at hmem
            · exact Or.inl hmem
            · unfold Consumer.handleEvent at hmem
              dsimp only at hmem
              split_ifs at hmem with hok
              · rcases mem_cons.mp hmem with rfl | hmem
                · exact Or.inr ⟨rfl, hok⟩
                · exact Or.inl hmem
              · exact Or.inl hmem
              · exact Or.inl hmem
      rcases hstep with hmem | hok
      · exact Or.inl hmem
      · exact Or.inr ⟨d, mem_cons_self, hok⟩
    · exact Or.inr ⟨d', mem_cons_of_mem _ hd', hok⟩

theorem unparsed_run (limit : Int) (hm : msgs[i]? = some m) (hevent : unmarshal m.body = none)
    (c : Consumer) (schedule : List Delivery) (hcalls : c.calls i = 0)
    (hacked : c.acked.count i = 0) :
    (run (Consumer.step unmarshal limit msgs) c schedule).calls i = 0 ∧
      (run (Consumer.step unmarshal limit msgs) c schedule).acked.count i = 0 := by
  induction schedule generalizing c with
  | nil => exact ⟨hcalls, hacked⟩
  | cons d schedule ih =>
    rw [run_cons]
    have hstep : (c.step unmarshal limit msgs d).calls i = 0 ∧
        (c.step unmarshal limit msgs d).acked.count i = 0 := by
      unfold Consumer.step
      cases hd : msgs[d.msg]? with
      | none => exact ⟨hcalls, hacked⟩
      | some m' =>
        dsimp only
        by_cases hsettled : c.Settled d.msg
        · rw [if_pos hsettled]
          exact ⟨hcalls, hacked⟩
        rw [if_neg hsettled]
        unfold Consumer.handle
        cases hevent' : unmarshal m'.body with
        | none => exact ⟨hcalls, hacked⟩
        | some event' =>
          have hi : d.msg ≠ i := by
            rintro rfl
            rw [hm, Option.some.injEq] at hd
            rw [hd, hevent'] at hevent
            cases hevent
          obtain ⟨hsame, hsame', _⟩ :=
            handleEvent_other limit c hi (messageKey m' event' c.nextTag) d.ok
          exact ⟨hsame.trans hcalls, hsame'.trans hacked⟩
    exact ih _ hstep.1 hstep.2

theorem course_run (hm : msgs[i]? = some m) (hevent : unmarshal m.body = some event)
    (hstable : stableKey m event = some key)
    (hown : ∀ j m' event', msgs[j]? = some m' → unmarshal m'.body = some event' →
      stableKey m' event' = some key → j = i) (hlimit : 0 ≤ limit) (schedule : List Delivery) :
    (run (Consumer.step unmarshal limit msgs) .empty schedule).Course limit key i := by
  have hstart : Consumer.empty.Course limit key i := .pending rfl hlimit
  exact run_invariant (I := Consumer.Course limit key i) (G := fun _ _ => True)
    (fun c d h _ => course_step hm hevent hstable hown h d) hstart
    (guarded_of_forall (P := fun _ => True) fun _ _ => trivial)

theorem bounded_of_ownKey (hm : msgs[i]? = some m) (hown : OwnKey unmarshal msgs i m)
    (hlimit : 0 ≤ limit) : Bounded unmarshal limit msgs i ∧ Cleared unmarshal limit msgs i m := by
  cases hevent : unmarshal m.body with
  | none =>
    constructor
    · intro schedule _
      obtain ⟨hcalls, _⟩ := unparsed_run limit hm hevent .empty schedule rfl rfl
      rw [hcalls]
      exact ⟨by omega, fun hzero => (by omega)⟩
    · intro schedule hacked
      obtain ⟨_, hnone⟩ := unparsed_run limit hm hevent .empty schedule rfl rfl
      exact absurd hacked (count_eq_zero.mp hnone)
  | some event =>
    obtain ⟨key, hstable, hother⟩ := hown event hevent
    have hcourse := course_run hm hevent hstable hother hlimit
    constructor
    · intro schedule hfails
      have hnot : (run (Consumer.step unmarshal limit msgs) .empty schedule).acked.count i =
          0 := by
        rw [count_eq_zero]
        intro hmem
        rcases mem_acked_run .empty schedule hmem with hnil | ⟨d, hd, hi, hok⟩
        · cases hnil
        · rw [hfails d hd hi] at hok
          cases hok
      have h := hcourse schedule
      unfold Consumer.Course at h
      rw [hnot] at h
      generalize Consumer.retries _ key = v at h
      generalize Consumer.calls _ i = n at h ⊢
      generalize List.count i _ = k at h ⊢
      cases h with
      | pending _ hle => exact ⟨by omega, fun hn => (by omega)⟩
      | deadLettered hn => exact ⟨by omega, fun _ => rfl⟩
    · intro schedule hmem
      have h := hcourse schedule
      have hpos := count_pos_iff.mpr hmem
      have hretries : (run (Consumer.step unmarshal limit msgs) .empty schedule).retries key =
            none ∧
          (run (Consumer.step unmarshal limit msgs) .empty schedule).acked.count i = 1 ∧
          (run (Consumer.step unmarshal limit msgs) .empty schedule).deadLettered.count i =
            0 := by
        unfold Consumer.Course at h
        generalize Consumer.retries _ key = v at h ⊢
        generalize Consumer.calls _ i = n at h
        generalize List.count i _ = a at h hpos ⊢
        generalize List.count i _ = b at h ⊢
        cases h with
        | pending | deadLettered => exact absurd hpos (Nat.lt_irrefl 0)
        | acked _ => exact ⟨rfl, rfl, rfl⟩
      refine ⟨hretries.2.1, count_eq_zero.mp hretries.2.2, ?_⟩
      intro tag _ event' hevent'
      rw [hevent, Option.some.injEq] at hevent'
      subst hevent'
      rw [messageKey_of_stable hstable]
      exact hretries.1

end Sufficient

section Necessary

variable {unmarshal : Bytes → Option Event} {limit : Int} {msgs : List Message}
  {c : Consumer} {i : Nat} {m : Message} {event : Event}

theorem step_eq (hm : msgs[i]? = some m) (hevent : unmarshal m.body = some event)
    (hpending : ¬ c.Settled i) (ok : Bool) :
    c.step unmarshal limit msgs ⟨i, ok⟩ =
      c.handleEvent limit i (messageKey m event c.nextTag) ok := by
  unfold Consumer.step
  dsimp only
  rw [hm]
  dsimp only
  rw [if_neg hpending]
  unfold Consumer.handle
  rw [hevent]

variable {key : String}

theorem handleEvent_requeue (hlt : (c.retries key).getD 0 < limit) :
    c.handleEvent limit i key false =
      { c with
        nextTag := c.nextTag + 1
        handed := (i, c.nextTag) :: c.handed
        retries := update c.retries key (some ((c.retries key).getD 0 + 1)) } := by
  unfold Consumer.handleEvent
  dsimp only
  rw [if_neg Bool.false_ne_true, if_neg (by omega)]

theorem calls_untagged (hm : msgs[i]? = some m) (hevent : unmarshal m.body = some event)
    (hstable : stableKey m event = none) (hlimit : 0 < limit) (n : Nat) (c : Consumer)
    (hpending : ¬ c.Settled i)
    (hfresh : ∀ tag, c.nextTag ≤ tag → c.retries ("tag:" ++ toString tag) = none) :
    (run (Consumer.step unmarshal limit msgs) c (List.replicate n ⟨i, false⟩)).calls i =
      c.calls i + n := by
  induction n generalizing c with
  | zero => rfl
  | succ n ih =>
    have hnone := hfresh c.nextTag (Nat.le_refl _)
    rw [replicate_succ, run_cons, step_eq hm hevent hpending,
      messageKey_of_unstable hstable, handleEvent_requeue (by rw [hnone]; exact hlimit), ih]
    · rw [calls_cons rfl, if_pos rfl]
      omega
    · exact hpending
    · intro tag htag
      have htag : c.nextTag + 1 ≤ tag := htag
      show update c.retries _ _ _ = none
      rw [update_of_ne]
      · exact hfresh tag (by omega)
      · exact fun h => (by have hsame := tag_inj h; omega)

theorem calls_keyed (hm : msgs[i]? = some m) (hevent : unmarshal m.body = some event)
    (hstable : stableKey m event = some key) (n : Nat) (c : Consumer) (hpending : ¬ c.Settled i)
    (hbelow : (c.retries key).getD 0 + n ≤ limit) :
    (run (Consumer.step unmarshal limit msgs) c (List.replicate (n + 1) ⟨i, false⟩)).calls i =
      c.calls i + n + 1 := by
  induction n generalizing c with
  | zero =>
    show (c.step unmarshal limit msgs ⟨i, false⟩).calls i = _
    rw [step_eq hm hevent hpending, calls_cons (handed_handleEvent _ _ _ _ _), if_pos rfl]
  | succ n ih =>
    rw [replicate_succ, run_cons, step_eq hm hevent hpending, messageKey_of_stable hstable,
      handleEvent_requeue (by omega), ih]
    · rw [calls_cons rfl, if_pos rfl]
      omega
    · exact hpending
    · show (update c.retries key _ key).getD 0 + n ≤ limit
      rw [update_self, Option.getD_some]
      omega

theorem not_bounded_of_unstable (hm : msgs[i]? = some m) (hevent : unmarshal m.body = some event)
    (hstable : stableKey m event = none) (hlimit : 0 < limit) :
    ¬ Bounded unmarshal limit msgs i := by
  intro h
  have hfails : ∀ d ∈ List.replicate (limit.toNat + 2) (⟨i, false⟩ : Delivery),
      d.msg = i → d.ok = false := by
    intro d hd _
    rw [eq_of_mem_replicate hd]
  have hbound := (h _ hfails).1
  rw [calls_untagged hm hevent hstable hlimit _ .empty (by simp [Consumer.Settled, Consumer.empty])
    fun _ _ => rfl] at hbound
  have hzero : Consumer.empty.calls i = 0 := rfl
  rw [hzero] at hbound
  omega

theorem not_bounded_of_shared {j : Nat} {m' : Message} {event' : Event}
    (hm : msgs[i]? = some m) (hevent : unmarshal m.body = some event)
    (hstable : stableKey m event = some key) (hm' : msgs[j]? = some m')
    (hevent' : unmarshal m'.body = some event') (hstable' : stableKey m' event' = some key)
    (hne : j ≠ i) (hlimit : 0 < limit) : ¬ Bounded unmarshal limit msgs i := by
  intro h
  have hfails : ∀ d ∈ ⟨i, false⟩ :: ⟨j, true⟩ ::
      List.replicate (limit.toNat + 1) (⟨i, false⟩ : Delivery), d.msg = i → d.ok = false := by
    intro d hd hi
    rcases mem_cons.mp hd with rfl | hd
    · rfl
    rcases mem_cons.mp hd with rfl | hd
    · exact absurd hi hne
    · rw [eq_of_mem_replicate hd]
  have hbound := (h _ hfails).1
  have hpending : ∀ k, ¬ Consumer.empty.Settled k := by
    intro k
    simp [Consumer.Settled, Consumer.empty]
  have hfirst : Consumer.empty.step unmarshal limit msgs ⟨i, false⟩ = _ :=
    (step_eq hm hevent (hpending i) false).trans (handleEvent_requeue hlimit)
  have hcalls : (Consumer.empty.step unmarshal limit msgs ⟨i, false⟩).calls i = 1 := by
    rw [hfirst, calls_cons (c := .empty) rfl, if_pos rfl]
    rfl
  have hpending₁ : ∀ k, ¬ (Consumer.empty.step unmarshal limit msgs ⟨i, false⟩).Settled k := by
    rw [hfirst]
    exact hpending
  rw [run_cons, run_cons] at hbound
  generalize Consumer.empty.step unmarshal limit msgs ⟨i, false⟩ = c₁ at hbound hcalls hpending₁
  rw [step_eq hm' hevent' (hpending₁ j), messageKey_of_stable hstable',
    calls_keyed hm hevent hstable, (handleEvent_other limit c₁ hne key true).1, hcalls] at hbound
  · omega
  · rintro (hmem | hmem)
    · rcases mem_cons.mp hmem with rfl | hmem
      · exact hne rfl
      · exact hpending₁ i (Or.inl hmem)
    · exact hpending₁ i (Or.inr hmem)
  · show (update c₁.retries key none key).getD 0 + _ ≤ limit
    rw [update_self, Option.getD_none]
    omega

end Necessary

/-- **When a message is retried within the limit.** -/
theorem retries_bounded_iff (unmarshal : Bytes → Option Event) (maxRetries : Int)
    (msgs : List Message) (i : Fin msgs.length) :
    (Bounded unmarshal (retryLimit maxRetries) msgs i ∧
        Cleared unmarshal (retryLimit maxRetries) msgs i msgs[i]) ↔
      0 ≤ maxRetries ∧ OwnKey unmarshal msgs i msgs[i] := by
  have hm : msgs[i.1]? = some msgs[i] := List.getElem?_eq_getElem i.2
  constructor
  · rintro ⟨hbounded, _⟩
    have hnonneg : 0 ≤ retryLimit maxRetries := by
      obtain ⟨hle, hthen⟩ := hbounded [] fun _ hd => (by cases hd)
      have hzero : (run (Consumer.step unmarshal (retryLimit maxRetries) msgs) .empty []).calls i =
          0 := rfl
      rw [hzero] at hle hthen
      by_contra hneg
      have hone := hthen (by omega)
      cases hone
    have hpos : 0 < retryLimit maxRetries ∧ 0 ≤ maxRetries := by
      unfold retryLimit at hnonneg ⊢
      split_ifs at hnonneg ⊢ <;> omega
    refine ⟨hpos.2, fun event hevent => ?_⟩
    cases hstable : stableKey msgs[i] event with
    | none => exact absurd hbounded (not_bounded_of_unstable hm hevent hstable hpos.1)
    | some key =>
      refine ⟨key, rfl, fun j m' event' hm' hevent' hsame => ?_⟩
      by_contra hne
      exact not_bounded_of_shared hm hevent hstable hm' hevent' hsame hne hpos.1 hbounded
  · rintro ⟨hmax, hown⟩
    have hlimit : 0 ≤ retryLimit maxRetries := by
      unfold retryLimit
      split_ifs <;> omega
    exact bounded_of_ownKey hm hown hlimit

def twoBodies : Bytes → Option Event
  | [1] => some ⟨""⟩
  | 1 :: _ => some ⟨"e"⟩
  | _ => none

def fails (i n : Nat) : List Delivery := List.replicate n ⟨i, false⟩

theorem retried_without_end :
    (run (Consumer.step twoBodies 3 [⟨"", [1]⟩]) .empty (fails 0 5)).calls 0 = 5 ∧
      (run (Consumer.step twoBodies 3 [⟨"", [1]⟩]) .empty (fails 0 5)).deadLettered = [] ∧
      (run (Consumer.step twoBodies 3 [⟨"", [1]⟩]) .empty (fails 0 5 ++ [⟨0, true⟩])).acked = [0] ∧
      (run (Consumer.step twoBodies 3 [⟨"", [1]⟩]) .empty (fails 0 5 ++ [⟨0, true⟩])).retries
        "tag:4" = some 1 := by
  decide +kernel

end OciJanus.Messaging.Retries
