import Mathlib.Data.List.Basic

/-!
# A client that follows redirects

A `301`, `302` or `303` is followed with a `GET`, a `307` or `308` with the same method and body.
The tenth redirect is not followed.
-/

namespace OciJanus.Verified.HttpClient

open List

inductive Method where
  | get
  | head
  | post
  | other
  deriving DecidableEq

inductive Scheme where
  | http
  | https
  | other
  deriving DecidableEq

structure Url where
  scheme : Scheme
  hostname : String
  deriving DecidableEq

structure Request where
  method : Method
  url : Url
  body : Bool
  deriving DecidableEq

inductive Location where
  | absent
  | malformed
  | target (url : Url)

structure Response (η : Type*) where
  status : Nat
  location : Location
  rest : η

structure Hop (δ η : Type*) where
  dials : List δ
  reply : Option (Response η)

inductive Event (γ : Type*) where
  | connected (conn : γ)
  | sent (req : Request)
  deriving DecidableEq

structure Call where
  req : Request
  sent : Nat

inductive Progress (η : Type*) where
  | redirected (c : Call)
  | returned (resp : Option (Response η))

def redirectBehavior (method : Method) (status : Nat) : Option (Method × Bool) :=
  if status = 301 ∨ status = 302 ∨ status = 303 then
    some (if method = .head then .head else .get, false)
  else if status = 307 ∨ status = 308 then some (method, true)
  else none

def maxRedirects : Nat := 10

variable {γ δ η : Type*}

namespace Call

def start (req : Request) : Call := ⟨req, 1⟩

def next (c : Call) (resp : Response η) : Progress η :=
  match redirectBehavior c.req.method resp.status with
  | none => .returned (some resp)
  | some (method, keep) =>
    match resp.location with
    | .absent => .returned (some resp)
    | .malformed => .returned none
    | .target url =>
      if maxRedirects ≤ c.sent then .returned none
      else .redirected ⟨⟨method, url, c.req.body && keep⟩, c.sent + 1⟩

def sendable (c : Call) : Bool :=
  (c.req.url.scheme = .http ∨ c.req.url.scheme = .https) ∧ c.req.url.hostname ≠ ""

variable (dial : String → δ → Option γ)

def opened (c : Call) (hop : Hop δ η) : List γ := hop.dials.filterMap (dial c.req.url.hostname)

def connects (c : Call) (hop : Hop δ η) : Bool :=
  hop.dials.isEmpty || !(c.opened dial hop).isEmpty

def roundTrip (c : Call) (hop : Hop δ η) : List (Event γ) × Progress η :=
  if c.sendable && c.connects dial hop then
    ((c.opened dial hop).map .connected ++ [.sent c.req], match hop.reply with
      | none => .returned none
      | some resp => c.next resp)
  else ([], .returned none)

variable {dial} {c : Call} {hop : Hop δ η} {conn : γ}

theorem connected_roundTrip (h : .connected conn ∈ (c.roundTrip dial hop).1) :
    c.sendable = true ∧ ∃ d ∈ hop.dials, dial c.req.url.hostname d = some conn := by
  unfold roundTrip at h
  split_ifs at h with hsend
  · rcases mem_append.mp h with hmem | hmem
    · obtain ⟨conn', hconn, heq⟩ := mem_map.mp hmem
      cases heq
      exact ⟨(Bool.and_eq_true_iff.mp hsend).1, mem_filterMap.mp hconn⟩
    · cases mem_singleton.mp hmem
  · cases h

theorem sent_roundTrip {req : Request} (h : .sent req ∈ (c.roundTrip dial hop).1) :
    req = c.req ∧ c.sendable = true := by
  unfold roundTrip at h
  split_ifs at h with hsend
  · rcases mem_append.mp h with hmem | hmem
    · obtain ⟨conn, _, heq⟩ := mem_map.mp hmem
      cases heq
    · cases mem_singleton.mp hmem
      exact ⟨rfl, (Bool.and_eq_true_iff.mp hsend).1⟩
  · cases h

theorem redirectBehavior_keeps {method method' : Method} {status : Nat}
    (h : redirectBehavior method status = some (method', true)) : status = 307 ∨ status = 308 := by
  unfold redirectBehavior at h
  by_cases hdrop : status = 301 ∨ status = 302 ∨ status = 303
  · rw [if_pos hdrop] at h
    cases h
  · rw [if_neg hdrop] at h
    by_contra hkeep
    rw [if_neg hkeep] at h
    cases h

theorem next_eq_redirected {resp : Response η} {c' : Call} (h : c.next resp = .redirected c') :
    resp.location = .target c'.req.url ∧
      (c'.req.body = true → c.req.body = true ∧ (resp.status = 307 ∨ resp.status = 308)) := by
  unfold next at h
  cases hbehavior : redirectBehavior c.req.method resp.status with
  | none =>
    rw [hbehavior] at h
    cases h
  | some behavior =>
    obtain ⟨method, keep⟩ := behavior
    rw [hbehavior] at h
    dsimp only at h
    cases hlocation : resp.location with
    | absent | malformed =>
      rw [hlocation] at h
      cases h
    | target url =>
      rw [hlocation] at h
      dsimp only at h
      split_ifs at h
      cases h
      refine ⟨rfl, fun hbody => ?_⟩
      obtain ⟨hfirst, hkeep⟩ := Bool.and_eq_true_iff.mp hbody
      rw [hkeep] at hbehavior
      exact ⟨hfirst, redirectBehavior_keeps hbehavior⟩

theorem redirected_roundTrip {c' : Call} (h : (c.roundTrip dial hop).2 = .redirected c') :
    ∃ resp, hop.reply = some resp ∧ c.next resp = .redirected c' := by
  unfold roundTrip at h
  split_ifs at h
  cases hreply : hop.reply with
  | none =>
    rw [hreply] at h
    cases h
  | some resp =>
    rw [hreply] at h
    exact ⟨resp, rfl, h⟩

end Call

end OciJanus.Verified.HttpClient
