import OciJanus.Gc.Deleters
import OciJanus.Proxy.Upstream

/-!
# Manifests that registry-proxy caches

The digest is the header that came with the manifest; nobody hashes the body. Rows fetched for a
`HEAD` are assumed to be honest.
-/

namespace OciJanus.Proxy.Manifests

open Core.Storage
open Core.Upload (digestOf)
open Core.UploadHandlers (matchesDigestRE)
open Gc.Deleters (document documentDigest)
open Verified Run Sha256 Utf8 Proxy.Upstream

structure CacheKey where
  (tenantID upstreamID image reference : String)
  deriving DecidableEq

structure ManifestRecord where
  (digest mediaType : String)
  body : Bytes
  fetchedAt : Int

/-- The cached rows, and the fetched manifests still to be cached. -/
structure World where
  rows : CacheKey → Option ManifestRecord
  pending : List (CacheKey × ManifestResult)
  now : Int

def second : Int := 1000000000

def getManifest (w : World) (key : CacheKey) (ttlSeconds : Int) : Option ManifestRecord :=
  (w.rows key).filter fun row => w.now < row.fetchedAt + ttlSeconds * second

def upsertManifest (w : World) (key : CacheKey) (result : ManifestResult) : World :=
  { w with
    rows := Function.update w.rows key
      (some ⟨result.digest, result.mediaType, result.body, w.now⟩) }

inductive Reply where
  | ociErr (status : Nat) (code message : String)
  | ok (contentType contentDigest : String) (contentLength : Nat) (body : Option Bytes)
  deriving DecidableEq

structure Request where
  key : CacheKey
  ttlSeconds : Int
  cacheFails : Bool
  upstream : UpstreamReply

def Request.hit (w : World) (req : Request) : Option ManifestRecord :=
  if req.cacheFails then none else getManifest w req.key req.ttlSeconds

def handleManifest (send : Bytes → Option Bytes) (w : World) (req : Request) : Reply × World :=
  match req.hit w with
  | some row => (.ok row.mediaType row.digest row.body.length (send row.body), w)
  | none =>
    match fetchManifest req.upstream with
    | .error .notFound => (.ociErr 404 "MANIFEST_UNKNOWN" "manifest not found in upstream", w)
    | .error .other => (.ociErr 502 "UPSTREAM_ERROR" "upstream fetch failed", w)
    | .ok result =>
      (.ok result.mediaType result.digest result.body.length (send result.body),
        { w with pending := (req.key, result) :: w.pending })

def handleGetManifest : World → Request → Reply × World := handleManifest some

def handleHeadManifest : World → Request → Reply × World := handleManifest fun _ => none

inductive Action where
  | tick (d : Nat)
  | get (req : Request)
  | head (req : Request)
  | cacheManifest (key : CacheKey) (result : ManifestResult) (succeeds : Bool)

def cacheManifest (w : World) (key : CacheKey) (result : ManifestResult) (succeeds : Bool) :
    World :=
  if (key, result) ∈ w.pending then
    let arrived := { w with pending := w.pending.erase (key, result) }
    if succeeds then upsertManifest arrived key result else arrived
  else w

def step (w : World) : Action → World
  | .tick d => { w with now := w.now + d }
  | .get req => (handleGetManifest w req).2
  | .head req => (handleHeadManifest w req).2
  | .cacheManifest key result succeeds => cacheManifest w key result succeeds

def start (now : Int) : World := ⟨fun _ => none, [], now⟩

def Honest (reference digest : String) (body : Bytes) : Prop :=
  digest = digestOf body ∧ (matchesDigestRE reference = true → digest = reference)

instance (reference digest : String) (body : Bytes) : Decidable (Honest reference digest body) :=
  inferInstanceAs (Decidable (_ ∧ _))

def FetchesHonest (w : World) (req : Request) : Prop :=
  req.hit w = none → ∀ result, fetchManifest req.upstream = .ok result →
    Honest req.key.reference result.digest result.body

def AnswersHonest (w : World) : Action → Prop
  | .get req => ∀ contentType digest contentLength body,
      (handleGetManifest w req).1 = .ok contentType digest contentLength (some body) →
        Honest req.key.reference digest body
  | _ => True

def GetsHonest (w : World) : Action → Prop
  | .get req => FetchesHonest w req
  | _ => True

def HeadsHonest (w : World) : Action → Prop
  | .head req => FetchesHonest w req
  | _ => True

structure CacheHonest (w : World) : Prop where
  rows : ∀ key row, w.rows key = some row → Honest key.reference row.digest row.body
  pending : ∀ p ∈ w.pending, Honest p.1.reference p.2.digest p.2.body

variable {w : World}

theorem hit_honest (h : CacheHonest w) {req : Request} {row : ManifestRecord}
    (hit : req.hit w = some row) : Honest req.key.reference row.digest row.body := by
  unfold Request.hit getManifest at hit
  split_ifs at hit
  exact h.rows req.key row (Option.filter_eq_some_iff.mp hit).1

theorem cacheHonest_handle (h : CacheHonest w) (send : Bytes → Option Bytes)
    {req : Request} (hreq : FetchesHonest w req) : CacheHonest (handleManifest send w req).2 := by
  unfold handleManifest
  cases hhit : req.hit w with
  | some row => exact h
  | none =>
    cases hfetch : fetchManifest req.upstream with
    | error e => cases e <;> exact h
    | ok result =>
      refine ⟨h.rows, ?_⟩
      intro p hp
      rcases List.mem_cons.mp hp with rfl | hp
      · exact hreq hhit result hfetch
      · exact h.pending p hp

theorem cacheHonest_cacheManifest (h : CacheHonest w) (key : CacheKey)
    (result : ManifestResult) (succeeds : Bool) :
    CacheHonest (cacheManifest w key result succeeds) := by
  unfold cacheManifest
  simp only
  have hpending : ∀ p ∈ w.pending.erase (key, result), Honest p.1.reference p.2.digest p.2.body :=
    fun p hp => h.pending p (List.mem_of_mem_erase hp)
  split_ifs with hmem hsucceeds
  · refine ⟨?_, hpending⟩
    intro key' row hrow
    by_cases hkey : key' = key
    · subst hkey
      simp only [upsertManifest, Function.update_self, Option.some.injEq] at hrow
      subst hrow
      exact h.pending _ hmem
    · simp only [upsertManifest, Function.update_of_ne hkey] at hrow
      exact h.rows key' row hrow
  · exact ⟨h.rows, hpending⟩
  · exact h

theorem cacheHonest_step (h : CacheHonest w) {a : Action} (hget : GetsHonest w a)
    (hhead : HeadsHonest w a) : CacheHonest (step w a) := by
  cases a with
  | tick d => exact ⟨h.rows, h.pending⟩
  | get req => exact cacheHonest_handle h some hget
  | head req => exact cacheHonest_handle h _ hhead
  | cacheManifest key result succeeds => exact cacheHonest_cacheManifest h key result succeeds

theorem answersHonest_iff (h : CacheHonest w) (a : Action) :
    AnswersHonest w a ↔ GetsHonest w a := by
  cases a with
  | tick | head | cacheManifest => exact Iff.rfl
  | get req =>
    simp only [AnswersHonest, GetsHonest, FetchesHonest, handleGetManifest, handleManifest]
    cases hhit : req.hit w with
    | some row =>
      apply iff_of_true
      · intro contentType digest contentLength body hok
        cases hok
        exact hit_honest h hhit
      · intro hnone
        cases hnone
    | none =>
      cases hfetch : fetchManifest req.upstream with
      | error e => cases e <;> simp
      | ok result =>
        simp only [Reply.ok.injEq, Option.some.injEq, Except.ok.injEq]
        constructor
        · intro hanswer _ result' hresult
          exact hresult ▸ hanswer _ _ _ _ ⟨rfl, rfl, rfl, rfl⟩
        · rintro hget _ _ _ _ ⟨rfl, rfl, rfl, rfl⟩
          exact hget trivial result rfl

/-- **When proxied manifests are what their digests say.** -/
theorem manifests_honest_iff (now : Int) (acts : List Action)
    (hheads : Guarded step HeadsHonest (start now) acts) :
    Guarded step AnswersHonest (start now) acts ↔ Guarded step GetsHonest (start now) acts := by
  apply guarded_congr_of_invariant (I := CacheHonest) _ _ hheads
  · intro w a h hhead
    exact ⟨answersHonest_iff h a, fun hget => cacheHonest_step h hget hhead⟩
  · refine ⟨?_, ?_⟩
    · intro key row hrow
      cases hrow
    · intro p hp
      cases hp

def sampleKey : CacheKey := ⟨"t", "u", "library/app", documentDigest⟩

def labelled (body : Bytes) : Request where
  key := sampleKey
  ttlSeconds := 60
  cacheFails := false
  upstream := .response 200 ⟨"application/json; charset=utf-8", -1, documentDigest, ""⟩
    ⟨[body], true⟩

def unreachable : Request := { labelled [] with upstream := .failed }

def resultOf (body : Bytes) : ManifestResult := ⟨documentDigest, "application/json", body⟩

def fetchedThenCached (body : Bytes) : List Action :=
  [.get (labelled body), .cacheManifest sampleKey (resultOf body) true]

def otherBody : Bytes := stringBytes "[]"

theorem manifest_mislabelled :
    ¬ AnswersHonest (start 0) (.get (labelled otherBody)) ∧
      ¬ AnswersHonest (run step (start 0) (fetchedThenCached otherBody)) (.get unreachable) := by
  have hother : ¬ Honest sampleKey.reference documentDigest otherBody := by decide +kernel
  have hfetched : (handleGetManifest (start 0) (labelled otherBody)).1 =
      .ok "application/json" documentDigest 2 (some otherBody) := by decide +kernel
  have hcached : (handleGetManifest (run step (start 0) (fetchedThenCached otherBody))
      unreachable).1 = .ok "application/json" documentDigest 2 (some otherBody) := by
    decide +kernel
  constructor
  · intro hhonest
    exact hother (hhonest _ _ _ _ hfetched)
  · intro hhonest
    exact hother (hhonest _ _ _ _ hcached)

theorem manifest_served :
    Guarded step AnswersHonest (start 0)
      (.head (labelled document) :: fetchedThenCached document ++ [.get unreachable]) := by
  have hfetches : ∀ w, FetchesHonest w (labelled document) := by
    intro w _ result hok
    have hresult : fetchManifest (labelled document).upstream = .ok (resultOf document) := by
      decide +kernel
    cases hresult.symm.trans hok
    exact (by decide +kernel : Honest documentDigest documentDigest document)
  have hheads : Guarded step HeadsHonest (start 0)
      (.head (labelled document) :: fetchedThenCached document ++ [.get unreachable]) :=
    ⟨hfetches _, trivial, trivial, trivial, trivial⟩
  apply (manifests_honest_iff 0 _ hheads).mpr
  refine ⟨trivial, hfetches _, trivial, ?_, trivial⟩
  intro _ result hok
  cases hok

end OciJanus.Proxy.Manifests
