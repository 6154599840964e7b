import OciJanus.Verified.HttpClient
import OciJanus.Verified.IpAddr
import OciJanus.Verified.Run

/-!
# Where webhooks are sent to

The hook of the HTTP client looks the host up, refuses private answers and dials the first one.
Resolver and servers answer as they like.
-/

namespace OciJanus.Egress.Webhooks

open Verified HttpClient IpAddr Run Function

structure Answer where
  text : String
  ip : Option Addr

abbrev Lookup := Option (List Answer)

inductive DialError where
  | lookup
  | unparseable (ipStr host : String)
  | privateIP (ipStr : String)
  | noneResolved (host : String)

def pickAnswer (isPrivateIP : Addr → Bool) (host : String) :
    Option Addr → List Answer → Except DialError Addr
  | none, [] => .error (.noneResolved host)
  | some dialIP, [] => .ok dialIP
  | dialIP, answer :: answers =>
    match answer.ip with
    | none => .error (.unparseable answer.text host)
    | some ip =>
      if isPrivateIP ip then .error (.privateIP answer.text)
      else pickAnswer isPrivateIP host (some (dialIP.getD ip.unmap)) answers

def checkedDial (isPrivateIP : Addr → Bool) (host : String) : Lookup → Except DialError Addr
  | none => .error .lookup
  | some answers => pickAnswer isPrivateIP host none answers

namespace Dispatcher

def privateRanges : List Cidr :=
  [.v4 (octets 10 0 0 0) 8, .v4 (octets 172 16 0 0) 12, .v4 (octets 192 168 0 0) 16,
   .v4 (octets 127 0 0 0) 8, .v4 (octets 0 0 0 0) 8, .v4 (octets 169 254 0 0) 16,
   .v4 (octets 100 64 0 0) 10, .v6 1#128 128, .v6 (252#128 <<< 120) 7, .v6 (65152#128 <<< 112) 10]

def isPrivateIP (ip : Addr) : Bool := privateRanges.any (·.contains ip)

def dialContext : String → Lookup → Except DialError Addr := checkedDial isPrivateIP

end Dispatcher

namespace Poster

def privateRanges : List Cidr :=
  [.v4 (octets 10 0 0 0) 8, .v4 (octets 172 16 0 0) 12, .v4 (octets 192 168 0 0) 16,
   .v4 (octets 127 0 0 0) 8, .v4 (octets 0 0 0 0) 8, .v4 (octets 169 254 0 0) 16,
   .v4 (octets 100 64 0 0) 10, .v6 1#128 128, .v6 (252#128 <<< 120) 7, .v6 (65152#128 <<< 112) 10]

def isPrivateIP (ip : Addr) : Bool := privateRanges.any (·.contains ip)

def dialContext : String → Lookup → Except DialError Addr := checkedDial isPrivateIP

end Poster

inductive Sender where
  | dispatcher
  | poster

namespace Sender

def isPrivateIP : Sender → Addr → Bool
  | .dispatcher => Dispatcher.isPrivateIP
  | .poster => Poster.isPrivateIP

def dialContext : Sender → String → Lookup → Except DialError Addr
  | .dispatcher => Dispatcher.dialContext
  | .poster => Poster.dialContext

def dial (sender : Sender) (host : String) (lookup : Lookup) : Option Addr :=
  (sender.dialContext host lookup).toOption

end Sender

inductive UrlError where
  | invalid
  | notHttps
  | noHost
  | lookup (host : String)
  | privateIP (host addr : String)

def validateURL (sender : Sender) (url : Option Url) (lookup : Lookup) : Except UrlError Url :=
  match url with
  | none => .error .invalid
  | some u =>
    if u.scheme ≠ .https then .error .notHttps
    else if u.hostname = "" then .error .noHost
    else
      match lookup with
      | none => .error (.lookup u.hostname)
      | some answers =>
        match answers.find? fun answer => answer.ip.any sender.isPrivateIP with
        | some answer => .error (.privateIP u.hostname answer.text)
        | none => .ok u

/-- `log` lists every connection and every request. -/
structure System where
  endpoints : Nat → Option Url
  calls : Nat → Option Call
  log : List (Event Addr)

def System.start : System := ⟨fun _ => none, fun _ => none, []⟩

inductive Action where
  | put (id : Nat) (url : Option Url) (lookup : Lookup)
  | unset (id : Nat)
  | deliver (worker id : Nat)
  | hop (worker : Nat) (hop : Hop Lookup Unit)

def signedPost (url : Url) : Request := ⟨.post, url, true⟩

def Progress.call : Progress Unit → Option Call
  | .redirected c => some c
  | .returned _ => none

namespace System

variable (sender : Sender) (s : System)

def step : Action → System
  | .put id url lookup =>
    match validateURL sender url lookup with
    | .error _ => s
    | .ok u => { s with endpoints := update s.endpoints id (some u) }
  | .unset id => { s with endpoints := update s.endpoints id none }
  | .deliver worker id =>
    match s.calls worker, s.endpoints id with
    | none, some url =>
      { s with calls := update s.calls worker (some (Call.start (signedPost url))) }
    | _, _ => s
  | .hop worker hop =>
    match s.calls worker with
    | none => s
    | some c =>
      { s with
        calls :=
          update s.calls worker (Progress.call (c.roundTrip sender.dial hop).2)
        log := s.log ++ (c.roundTrip sender.dial hop).1 }

end System

def Confined : Event Addr → Prop
  | .connected a => a.isInternal = false
  | .sent req => req.body = true → req.url.scheme = .https

def downgrades (c : Call) (hop : Hop Lookup Unit) : Bool :=
  match hop.reply with
  | some ⟨status, .target url, _⟩ =>
    c.req.body && (status == 307 || status == 308) && url.scheme == .http
  | _ => false

def Tame (sender : Sender) (s : System) (a : Action) : Prop :=
  match a with
  | .hop worker hop =>
    match s.calls worker with
    | none => True
    | some c =>
      (∀ lookup ∈ hop.dials, sender.dial c.req.url.hostname lookup ≠ some (.v6 0#128)) ∧
        downgrades c hop = false
  | _ => True

instance (sender : Sender) (s : System) (a : Action) : Decidable (Tame sender s a) := by
  unfold Tame
  cases a with
  | hop worker hop =>
    dsimp only
    cases s.calls worker <;> infer_instance
  | _ => infer_instance

variable {x : Addr}

theorem isPrivateIP_v4 {a : BitVec 32} (hx : x.unmap = .v4 a) :
    Dispatcher.isPrivateIP x =
      (a >>> 24 == 10#32 || (a >>> 20 == 2753#32 || (a >>> 16 == 49320#32 ||
        (a >>> 24 == 127#32 || (a >>> 24 == 0#32 || (a >>> 16 == 43518#32 ||
          a >>> 22 == 401#32)))))) := by
  simp only [Dispatcher.isPrivateIP, Dispatcher.privateRanges, List.any_cons, List.any_nil,
    contains_v4 hx, v6_contains_v4 hx, Bool.or_false]
  rfl

theorem isPrivateIP_v6 {a : BitVec 128} (hx : x.unmap = .v6 a) :
    Dispatcher.isPrivateIP x = (a == 1#128 || (a >>> 121 == 126#128 || a >>> 118 == 1018#128)) := by
  simp only [Dispatcher.isPrivateIP, Dispatcher.privateRanges, List.any_cons, List.any_nil,
    contains_v6 hx, v4_contains_v6 hx, Bool.or_false, Bool.false_or]
  rfl

theorem isPrivateIP_of_internal_v4 {a : BitVec 32} (hx : x.unmap = .v4 a)
    (h : x.isInternal = true) : Dispatcher.isPrivateIP x = true := by
  rw [isPrivateIP_v4 hx]
  simp only [Addr.isInternal, Addr.isLoopback, Addr.isUnspecified, Addr.isPrivateUse,
    Addr.isUniqueLocal, Addr.isLinkLocal, Addr.isShared, hx, Bool.or_false, Bool.or_eq_true,
    beq_iff_eq] at h ⊢
  rcases h with (((hloop | hzero) | (hten | htwelve) | hsixteen) | hlocal) | hshared
  · exact Or.inr (Or.inr (Or.inr (Or.inl hloop)))
  · exact Or.inr (Or.inr (Or.inr (Or.inr (Or.inl (by rw [hzero]; rfl)))))
  · exact Or.inl hten
  · exact Or.inr (Or.inl htwelve)
  · exact Or.inr (Or.inr (Or.inl hsixteen))
  · exact Or.inr (Or.inr (Or.inr (Or.inr (Or.inr (Or.inl hlocal)))))
  · exact Or.inr (Or.inr (Or.inr (Or.inr (Or.inr (Or.inr hshared)))))

theorem internal_unlisted_iff (x : Addr) :
    x.isInternal = true ∧ Dispatcher.isPrivateIP x = false ↔ x.unmap = .v6 0#128 := by
  cases hx : x.unmap with
  | v4 a =>
    constructor
    · rintro ⟨hinternal, hlisted⟩
      rw [isPrivateIP_of_internal_v4 hx hinternal] at hlisted
      cases hlisted
    · intro h
      cases h
  | v6 a =>
    rw [isPrivateIP_v6 hx]
    simp only [Addr.isInternal, Addr.isLoopback, Addr.isUnspecified, Addr.isPrivateUse,
      Addr.isUniqueLocal, Addr.isLinkLocal, Addr.isShared, hx, Bool.or_false, Bool.or_eq_true,
      Bool.or_eq_false_iff, beq_iff_eq, beq_eq_false_iff_ne, Addr.v6.injEq]
    constructor
    · rintro ⟨((hloop | hzero) | hunique) | hlocal, hnloop, hnunique, hnlocal⟩
      · exact absurd hloop hnloop
      · exact hzero
      · exact absurd hunique hnunique
      · exact absurd hlocal hnlocal
    · intro hzero
      rw [hzero]
      decide

theorem sender_dialContext (sender : Sender) :
    sender.dialContext = checkedDial Dispatcher.isPrivateIP := by
  cases sender <;> rfl

theorem pickAnswer_eq_ok {isPrivateIP : Addr → Bool} {host : String} {dialIP : Option Addr}
    {answers : List Answer} {a : Addr} (h : pickAnswer isPrivateIP host dialIP answers = .ok a) :
    dialIP = some a ∨ ∃ ip, ip.unmap = a ∧ isPrivateIP ip = false := by
  induction answers generalizing dialIP with
  | nil =>
    cases dialIP with
    | none => cases h
    | some ip =>
      cases h
      exact Or.inl rfl
  | cons answer answers ih =>
    rw [pickAnswer] at h
    cases hip : answer.ip with
    | none =>
      rw [hip] at h
      cases h
    | some ip =>
      rw [hip] at h
      dsimp only at h
      by_cases hprivate : isPrivateIP ip = true
      · rw [if_pos hprivate] at h
        cases h
      · rw [if_neg hprivate] at h
        rcases ih h with hfirst | hlater
        · cases dialIP with
          | some first => exact Or.inl hfirst
          | none =>
            refine Or.inr ⟨ip, Option.some.inj hfirst, ?_⟩
            exact Bool.eq_false_iff.mpr hprivate
        · exact Or.inr hlater

theorem dial_eq_some {sender : Sender} {host : String} {lookup : Lookup} {a : Addr}
    (h : sender.dial host lookup = some a) (hne : a ≠ .v6 0#128) : a.isInternal = false := by
  unfold Sender.dial at h
  rw [sender_dialContext] at h
  cases lookup with
  | none => cases h
  | some answers =>
    unfold checkedDial at h
    dsimp only at h
    cases hpick : pickAnswer Dispatcher.isPrivateIP host none answers with
    | error err =>
      rw [hpick] at h
      cases h
    | ok a' =>
      rw [hpick] at h
      cases h
      rcases pickAnswer_eq_ok hpick with hnone | ⟨ip, rfl, hlisted⟩
      · cases hnone
      · rw [Addr.isInternal_unmap]
        by_contra hinternal
        exact hne ((internal_unlisted_iff ip).mp ⟨Bool.not_eq_false _ ▸ hinternal, hlisted⟩)

def Secure (c : Call) : Prop := c.req.body = true → c.req.url.scheme ≠ .http

structure Inv (s : System) : Prop where
  endpoints : ∀ id url, s.endpoints id = some url → url.scheme = .https
  calls : ∀ worker c, s.calls worker = some c → Secure c
  log : ∀ e ∈ s.log, Confined e

theorem validateURL_eq_ok {sender : Sender} {url : Option Url} {lookup : Lookup} {u : Url}
    (h : validateURL sender url lookup = .ok u) : u.scheme = .https := by
  unfold validateURL at h
  cases url with
  | none => cases h
  | some u' =>
    dsimp only at h
    by_cases hscheme : u'.scheme = .https
    · rw [if_neg (not_not.mpr hscheme)] at h
      by_cases hhost : u'.hostname = ""
      · rw [if_pos hhost] at h
        cases h
      · rw [if_neg hhost] at h
        cases lookup with
        | none => cases h
        | some answers =>
          dsimp only at h
          split at h
          · cases h
          · cases h
            exact hscheme
    · rw [if_pos hscheme] at h
      cases h

theorem secure_of_redirected {c c' : Call} {hop : Hop Lookup Unit}
    {dial : String → Lookup → Option Addr} (hhop : downgrades c hop = false)
    (hnext : (c.roundTrip dial hop).2 = .redirected c') : Secure c' := by
  obtain ⟨⟨status, location, rest⟩, hreply, hcall⟩ := Call.redirected_roundTrip hnext
  obtain ⟨hlocation, hbody⟩ := Call.next_eq_redirected hcall
  intro hbody' hhttp
  obtain ⟨hfirst, hstatus⟩ := hbody hbody'
  have hlocation : location = .target c'.req.url := hlocation
  subst hlocation
  have hdowngrade : downgrades c hop = true := by
    unfold downgrades
    rw [hreply]
    simpa [hfirst, hhttp] using hstatus
  rw [hdowngrade] at hhop
  cases hhop

theorem confined_roundTrip {sender : Sender} {c : Call} {hop : Hop Lookup Unit} (h : Secure c)
    (hdials : ∀ lookup ∈ hop.dials, sender.dial c.req.url.hostname lookup ≠ some (.v6 0#128)) :
    ∀ e ∈ (c.roundTrip sender.dial hop).1, Confined e := by
  intro e he
  cases e with
  | connected a =>
    obtain ⟨_, lookup, hlookup, hdial⟩ := Call.connected_roundTrip he
    refine dial_eq_some hdial ?_
    rintro rfl
    exact hdials lookup hlookup hdial
  | sent req =>
    obtain ⟨rfl, hsendable⟩ := Call.sent_roundTrip he
    intro hbody
    have hscheme := (of_decide_eq_true hsendable).1
    exact hscheme.resolve_left (h hbody)

namespace Inv

theorem start : Inv System.start where
  endpoints _ _ h := by cases h
  calls _ _ h := by cases h
  log _ h := by cases h

theorem forall_update {ρ : Type} {f : Nat → Option ρ} {P : ρ → Prop} {k : Nat} {v : Option ρ}
    (h : ∀ i x, f i = some x → P x) (hv : ∀ x, v = some x → P x) :
    ∀ i x, update f k v i = some x → P x := by
  intro i x hx
  by_cases hi : i = k
  · subst hi
    rw [update_self] at hx
    exact hv x hx
  · rw [update_of_ne hi] at hx
    exact h i x hx

theorem step {sender : Sender} {s : System} {a : Action} (h : Inv s) (ha : Tame sender s a) :
    Inv (s.step sender a) := by
  cases a with
  | put id url lookup =>
    unfold System.step
    dsimp only
    cases hvalid : validateURL sender url lookup with
    | error err => exact h
    | ok u =>
      refine ⟨forall_update h.endpoints ?_, h.calls, h.log⟩
      intro u' hu'
      cases hu'
      exact validateURL_eq_ok hvalid
  | unset id =>
    refine ⟨forall_update h.endpoints ?_, h.calls, h.log⟩
    intro u hu
    cases hu
  | deliver worker id =>
    unfold System.step
    dsimp only
    cases hworker : s.calls worker with
    | some c => exact h
    | none =>
      cases hid : s.endpoints id with
      | none => exact h
      | some url =>
        refine ⟨h.endpoints, forall_update h.calls ?_, h.log⟩
        intro c hc
        cases hc
        intro _ hhttp
        have hhttps := h.endpoints id url hid
        have hhttp : url.scheme = .http := hhttp
        rw [hhttps] at hhttp
        cases hhttp
  | hop worker hop =>
    unfold System.step
    unfold Tame at ha
    dsimp only at ha ⊢
    cases hworker : s.calls worker with
    | none => exact h
    | some c =>
      rw [hworker] at ha
      have hsecure := h.calls worker c hworker
      refine ⟨h.endpoints, forall_update h.calls ?_, ?_⟩
      · intro c' hc'
        cases hprogress : (c.roundTrip sender.dial hop).2 with
        | returned resp =>
          rw [hprogress] at hc'
          cases hc'
        | redirected next =>
          rw [hprogress] at hc'
          cases hc'
          exact secure_of_redirected ha.2 hprogress
      · intro e he
        rcases List.mem_append.mp he with hold | hnew
        · exact h.log e hold
        · exact confined_roundTrip hsecure ha.1 e hnew

end Inv

/-- **Every connection leads outside**, if no lookup leads to `::`. -/
theorem egress_confined (sender : Sender) (acts : List Action)
    (h : Guarded (System.step sender) (Tame sender) System.start acts) :
    ∀ e ∈ (run (System.step sender) System.start acts).log, Confined e :=
  (run_invariant (fun _ _ hs ha => hs.step ha) Inv.start h).log

def sampleAddr : Addr := .v4 (octets 93 184 215 14)

def sampleLookup : Lookup := some [⟨"93.184.215.14", some sampleAddr⟩]

def hooks : Url := ⟨.https, "hooks.example.com"⟩

def redirect (status : Nat) (url : Url) : Hop Lookup Unit :=
  ⟨[sampleLookup], some ⟨status, .target url, ()⟩⟩

def delivered : Hop Lookup Unit := ⟨[sampleLookup], some ⟨200, .absent, ()⟩⟩

def redirectedTwice : List Action :=
  [.put 1 (some hooks) sampleLookup, .deliver 1 1, .hop 1 (redirect 307 ⟨.https, "eu.example.com"⟩),
   .hop 1 (redirect 303 ⟨.http, "www.example.com"⟩), .hop 1 delivered]

theorem egress_confined_redirected_twice :
    Guarded (System.step .dispatcher) (Tame .dispatcher) System.start redirectedTwice ∧
      (∀ e ∈ (run (System.step .dispatcher) System.start redirectedTwice).log, Confined e) ∧
      .sent ⟨.get, ⟨.http, "www.example.com"⟩, false⟩ ∈
        (run (System.step .dispatcher) System.start redirectedTwice).log := by
  have hguard : Guarded (System.step .dispatcher) (Tame .dispatcher) System.start
      redirectedTwice := by decide +kernel
  exact ⟨hguard, egress_confined .dispatcher redirectedTwice hguard, by decide +kernel⟩

def moved : List Action :=
  [.put 1 (some hooks) sampleLookup, .deliver 1 1, .hop 1 ⟨[some [⟨"::", some (.v6 0#128)⟩]], none⟩,
   .deliver 1 1, .hop 1 (redirect 308 ⟨.http, "hooks.example.com"⟩), .hop 1 delivered]

/-- **A connection to the own host, and the signed payload in the clear.** -/
theorem egress_escapes :
    (∃ a, .connected a ∈ (run (System.step .dispatcher) System.start moved).log ∧
        a.isUnspecified = true) ∧
      ∃ req, .sent req ∈ (run (System.step .dispatcher) System.start moved).log ∧
        req.body = true ∧ req.url.scheme = .http :=
  ⟨⟨.v6 0#128, by decide +kernel, by decide +kernel⟩,
    ⟨⟨.post, ⟨.http, "hooks.example.com"⟩, true⟩, by decide +kernel, rfl, rfl⟩⟩

end OciJanus.Egress.Webhooks
