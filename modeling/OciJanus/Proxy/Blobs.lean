import OciJanus.Core.UploadHandlers
import OciJanus.Proxy.Upstream
import OciJanus.Verified.Json

/-!
# Blobs that registry-proxy caches

Each action is a whole request, at the moment of its commit; what it may have seen of storage
before is an argument.
-/

namespace OciJanus.Proxy.Blobs

open Core.Storage List
open Core.Upload (digestOf blobKey blobKey_suffix blobKey_under emptyDigest)
open Core.UploadHandlers (matchesDigestRE)
open Proxy.Upstream Verified
open Verified.GoStrings (trimPrefix trimPrefix_append hasPrefix_iff)
open Verified.Json (foldName foldRune)
open Verified.Run Verified.Sha256

/-- What becomes of a put to storage: `sends i` is its `i`-th message. -/
structure StoreFaults where
  (opens sendsMeta : Bool)
  sends : Nat → Bool
  close : Close

def sendPieces (sends : Nat → Bool) : Nat → List Bytes → Option Bytes
  | _, [] => some []
  | i, p :: ps =>
    if p = [] then sendPieces sends i ps
    else if sends i then (sendPieces sends (i + 1) ps).map (p ++ ·)
    else none

def storeBlobFromReader (o : Objects) (f : StoreFaults) (key tenantID : String) (r : Reader) :
    Bool × Objects :=
  if !f.opens || !f.sendsMeta then (false, o)
  else
    match sendPieces f.sends 0 r.pieces with
    | none => (false, o)
    | some sent =>
      -- a read error is not the end of the stream, and leaves the put open
      if r.complete then closePut o tenantID key sent f.close else (false, o)

def teeCopy (clientTakes : Nat → Bool) : Nat → List Bytes → Bytes → List Bytes × Bytes × Bool
  | _, [], hashed => ([], hashed, true)
  | i, p :: ps, hashed =>
    if clientTakes i then
      let rest := teeCopy clientTakes (i + 1) ps (hashed ++ p)
      (p :: rest.1, rest.2)
    else ([p], hashed ++ p, false)

def hexOf (content : Bytes) : String := trimPrefix (digestOf content) "sha256:"

def equalFold (s t : String) : Bool := foldName s = foldName t

def verifyBlobDigest (hashed : Bytes) (digest : String) : Bool :=
  equalFold (trimPrefix digest "sha256:") (hexOf hashed)

def pipe (clientTakes : Nat → Bool) (digest : String) (body : Reader) : Reader :=
  let copied := teeCopy clientTakes 0 body.pieces []
  ⟨copied.1, copied.2.2 && body.complete && verifyBlobDigest copied.2.1 digest⟩

structure StoreQueuedPayload where
  (tenantID upstreamName blobDigest image : String)
  deriving DecidableEq

/-- The objects, and the events that were published so far; each may be delivered at any time, and
again. -/
structure World where
  objects : Objects
  published : List StoreQueuedPayload

inductive Reply where
  | ociErr (status : Nat) (code message : String)
  | fromStorage
  | streamed (contentType contentDigest : String) (contentLength : Option Int)

/-- A request with what it meets: storage, the upstream, the client. -/
structure GetBlob where
  (tenantID upstreamName image digest : String)
  found : Bool
  upstream : UpstreamReply
  clientTakes : Nat → Bool
  faults : StoreFaults
  publishes : Bool

/-- A delivery of an event with what it meets. -/
structure Delivery where
  payload : StoreQueuedPayload
  upstreamKnown : Bool
  upstream : UpstreamReply
  faults : StoreFaults

inductive Action where
  | getBlob (g : GetBlob)
  | storeQueued (d : Delivery)

section Proxy

-- the cap on a fetched body, and `uuid.Parse`
variable (maxBytes : Nat) (isUUID : String → Bool)

def storeInBackground (w : World) (g : GetBlob) (key : String) (body : Reader) : World :=
  let stored :=
    storeBlobFromReader w.objects g.faults key g.tenantID (pipe g.clientTakes g.digest body)
  if !stored.1 && g.publishes then
    ⟨stored.2, ⟨g.tenantID, g.upstreamName, g.digest, g.image⟩ :: w.published⟩
  else ⟨stored.2, w.published⟩

def handleGetBlob (w : World) (g : GetBlob) : Reply × World :=
  if !matchesDigestRE g.digest then
    (.ociErr 400 "DIGEST_INVALID" "invalid digest format", w)
  else
    match blobKey g.tenantID g.digest with
    -- the slice of 64 digits does not panic
    | .error _ => (.ociErr 500 "" "", w)
    | .ok key =>
      if g.found then (.fromStorage, w)
      else
        match fetchBlob maxBytes g.upstream with
        | .error .notFound =>
          (.ociErr 404 "BLOB_UNKNOWN" "blob not found in upstream", w)
        | .error .other => (.ociErr 502 "UPSTREAM_ERROR" "upstream fetch failed", w)
        | .ok blob =>
          let ct := if blob.contentType = "" then "application/octet-stream" else blob.contentType
          (.streamed ct g.digest (if 0 < blob.size then some blob.size else none),
            storeInBackground w g key blob.body)

def retryStoreBlob (o : Objects) (d : Delivery) : Bool × Objects :=
  if !isUUID d.payload.tenantID || !d.upstreamKnown then (false, o)
  else
    match fetchBlob maxBytes d.upstream with
    | .error _ => (false, o)
    | .ok blob =>
      match blobKey d.payload.tenantID d.payload.blobDigest with
      -- the slice panics; an event that was published has a digest of 64 digits
      | .error _ => (false, o)
      | .ok key => storeBlobFromReader o d.faults key d.payload.tenantID blob.body

def handleStoreQueued (o : Objects) (d : Delivery) : Bool × Objects :=
  if d.payload.blobDigest = "" ∨ d.payload.image = "" then (true, o)
  else retryStoreBlob maxBytes isUUID o d

def step (w : World) : Action → World
  | .getBlob g => (handleGetBlob maxBytes w g).2
  | .storeQueued d =>
    if d.payload ∈ w.published then
      { w with objects := (handleStoreQueued maxBytes isUUID w.objects d).2 }
    else w

def start : World := ⟨fun _ => none, []⟩

end Proxy

/-- Every blob has the digest that its key says. -/
def Honest (w : World) : Prop :=
  ∀ tenantID digest key content, matchesDigestRE digest = true →
    blobKey tenantID digest = .ok key → w.objects key = some content → digestOf content = digest

def committed (f : StoreFaults) (key tenantID : String) (r : Reader) : Option Bytes :=
  if !f.opens || !f.sendsMeta || !r.complete || f.close == .refused then none
  else
    match validateTenantKey tenantID key with
    | .error _ => none
    | .ok () => sendPieces f.sends 0 r.pieces

theorem storeBlobFromReader_objects (o : Objects) (f : StoreFaults) (key tenantID : String)
    (r : Reader) :
    (storeBlobFromReader o f key tenantID r).2 =
      (committed f key tenantID r).elim o fun sent => Function.update o key (some sent) := by
  unfold storeBlobFromReader committed closePut
  cases f.opens <;> cases f.sendsMeta <;> cases r.complete <;>
    cases sendPieces f.sends 0 r.pieces <;> cases validateTenantKey tenantID key <;>
    cases f.close <;> rfl

variable {sent : Bytes} {key tenantID digest : String}

theorem sendPieces_eq_some_iff {sends : Nat → Bool} {i : Nat} {ps : List Bytes} :
    sendPieces sends i ps = some sent ↔
      (∀ j < (ps.filter (· ≠ [])).length, sends (i + j) = true) ∧ sent = ps.flatten := by
  induction ps generalizing i sent with
  | nil => exact ⟨fun h => ⟨by simp, by cases h; rfl⟩, fun h => congrArg some h.2.symm⟩
  | cons p ps ih =>
    rw [sendPieces]
    by_cases hp : p = []
    · simp [hp, ih]
    · rw [if_neg hp, filter_cons_of_pos (by simpa using hp), length_cons, Nat.forall_lt_succ_left']
      by_cases hsend : sends i = true
      · rw [if_pos hsend, Option.map_eq_some_iff]
        simp only [ih, Nat.add_zero, hsend, true_and, flatten_cons, Nat.add_right_comm i _ 1,
          ← Nat.add_assoc]
        constructor
        · rintro ⟨rest, ⟨hall, rfl⟩, rfl⟩
          exact ⟨hall, rfl⟩
        · rintro ⟨hall, rfl⟩
          exact ⟨_, ⟨hall, rfl⟩, rfl⟩
      · simp [hsend]

theorem committed_eq_some_iff {f : StoreFaults} {r : Reader} :
    committed f key tenantID r = some sent ↔
      (f.opens = true ∧ f.sendsMeta = true ∧ f.close ≠ .refused ∧
        ∀ i < r.messages.length, f.sends i = true) ∧
      validateTenantKey tenantID key = .ok () ∧ r.complete = true ∧ sent = r.content := by
  have hsend : sendPieces f.sends 0 r.pieces = some sent ↔
      (∀ i < r.messages.length, f.sends i = true) ∧ sent = r.content := by
    simpa [Reader.messages, Reader.content] using sendPieces_eq_some_iff (i := 0)
  unfold committed
  rcases f with ⟨opens, sendsMeta, sends, close⟩
  cases opens <;> cases sendsMeta <;> cases hcomplete : r.complete <;> cases close <;>
    cases validateTenantKey tenantID key <;> simp_all

theorem teeCopy_hashed (clientTakes : Nat → Bool) (i : Nat) (ps : List Bytes) (hashed : Bytes) :
    (teeCopy clientTakes i ps hashed).2.1 =
      hashed ++ (teeCopy clientTakes i ps hashed).1.flatten := by
  induction ps generalizing i hashed with
  | nil => simp [teeCopy]
  | cons p ps ih =>
    rw [teeCopy]
    split_ifs
    · simp [ih]
    · simp

def isHex (c : Char) : Bool := c.isDigit || ('a' ≤ c && c ≤ 'f')

theorem foldRune_of_isHex {c : Char} (h : isHex c = true) : foldRune c = c := by
  have hrange : (48 ≤ c.toNat ∧ c.toNat ≤ 57) ∨ (97 ≤ c.toNat ∧ c.toNat ≤ 102) := by
    simpa [isHex, Char.isDigit, Char.le_def, UInt32.le_iff_toNat_le] using h
  have hlower : c.toLower = c := by
    unfold Char.toLower
    rw [dif_neg]
    simp only [ge_iff_le, UInt32.le_iff_toNat_le]
    show ¬ (65 ≤ c.toNat ∧ c.toNat ≤ 90)
    omega
  rw [foldRune, if_neg (by omega), if_neg (by omega), hlower]

theorem digitChar_isHex {n : Nat} (h : n < 16) : isHex (Nat.digitChar n) = true := by
  have hall : ∀ m : Fin 16, isHex (Nat.digitChar m) = true := by decide
  exact hall ⟨n, h⟩

theorem matchesDigestRE_eq (h : matchesDigestRE digest = true) :
    ∃ hex : String, digest = "sha256:" ++ hex ∧ hex.toList.length = 64 ∧
      ∀ c ∈ hex.toList, isHex c = true := by
  unfold matchesDigestRE at h
  simp only [Bool.and_eq_true, beq_iff_eq, all_eq_true] at h
  obtain ⟨hex, rfl⟩ := hasPrefix_iff.mp h.1.1
  have hdrop : ("sha256:" ++ hex).toList.drop 7 = hex.toList := by
    rw [String.toList_append]
    rfl
  rw [hdrop] at h
  exact ⟨hex, rfl, h.1.2, h.2⟩

theorem digestOf_eq (content : Bytes) :
    ∃ hex : String, digestOf content = "sha256:" ++ hex ∧ ∀ c ∈ hex.toList, isHex c = true := by
  refine ⟨_, rfl, ?_⟩
  intro c hc
  rw [String.toList_ofList] at hc
  obtain ⟨b, _, hc⟩ := mem_flatMap.mp hc
  have hb : b.toNat < 256 := b.toNat_lt
  simp only [mem_cons, not_mem_nil, or_false] at hc
  rcases hc with rfl | rfl
  · exact digitChar_isHex (by omega)
  · exact digitChar_isHex (by omega)

theorem foldName_inj_of_isHex {s t : String} (hs : ∀ c ∈ s.toList, isHex c = true)
    (ht : ∀ c ∈ t.toList, isHex c = true) (h : foldName s = foldName t) : s = t := by
  have hself : ∀ u : String, (∀ c ∈ u.toList, isHex c = true) → foldName u = u.toList := by
    intro u hu
    exact (map_congr_left fun c hc => foldRune_of_isHex (hu c hc)).trans (map_id _)
  rw [hself s hs, hself t ht] at h
  exact String.toList_inj.mp h

theorem verifyBlobDigest_eq {hashed : Bytes}
    (hre : matchesDigestRE digest = true) (h : verifyBlobDigest hashed digest = true) :
    digestOf hashed = digest := by
  obtain ⟨hex, rfl, _, hhex⟩ := matchesDigestRE_eq hre
  obtain ⟨hex', hdigest, hhex'⟩ := digestOf_eq hashed
  unfold verifyBlobDigest equalFold hexOf at h
  rw [hdigest, trimPrefix_append, trimPrefix_append, decide_eq_true_eq] at h
  rw [hdigest, foldName_inj_of_isHex hhex hhex' h]

theorem blobKey_digest_inj {tenantID' digest' : String}
    (hre : matchesDigestRE digest = true) (hre' : matchesDigestRE digest' = true)
    (h : blobKey tenantID digest = .ok key) (h' : blobKey tenantID' digest' = .ok key) :
    digest = digest' := by
  obtain ⟨hex, rfl, hlen, _⟩ := matchesDigestRE_eq hre
  obtain ⟨hex', rfl, hlen', _⟩ := matchesDigestRE_eq hre'
  obtain ⟨front, hkey⟩ := blobKey_suffix h
  obtain ⟨front', hkey'⟩ := blobKey_suffix h'
  rw [trimPrefix_append] at hkey hkey'
  have htext := congrArg String.toList (hkey.symm.trans hkey')
  rw [String.toList_append, String.toList_append] at htext
  have hhex := (append_inj' htext (hlen.trans hlen'.symm)).2
  rw [String.toList_inj.mp hhex]

theorem getBlob_stores {f : StoreFaults} {clientTakes : Nat → Bool} {body : Reader}
    (hre : matchesDigestRE digest = true)
    (h : committed f key tenantID (pipe clientTakes digest body) = some sent) :
    digestOf sent = digest := by
  obtain ⟨-, -, hcomplete, rfl⟩ := committed_eq_some_iff.mp h
  simp only [pipe, Bool.and_eq_true] at hcomplete
  have hhashed := teeCopy_hashed clientTakes 0 body.pieces []
  rw [hhashed, nil_append] at hcomplete
  exact verifyBlobDigest_eq hre hcomplete.2

theorem honest_commit_iff {w : World} (h : Honest w)
    (hre : matchesDigestRE digest = true) (hkey : blobKey tenantID digest = .ok key)
    (sent : Bytes) (published : List StoreQueuedPayload) :
    Honest ⟨Function.update w.objects key (some sent), published⟩ ↔ digestOf sent = digest := by
  constructor
  · intro h'
    exact h' tenantID digest key sent hre hkey (Function.update_self ..)
  · intro hsent tenantID' digest' key' content hre' hkey' hcontent
    by_cases heq : key' = key
    · subst heq
      simp only [Function.update_self, Option.some.injEq] at hcontent
      rw [← hcontent, hsent]
      exact blobKey_digest_inj hre hre' hkey hkey'
    · simp only [Function.update_of_ne heq] at hcontent
      exact h tenantID' digest' key' content hre' hkey' hcontent

theorem honest_store_iff {w : World} (h : Honest w)
    (hre : matchesDigestRE digest = true) (hkey : blobKey tenantID digest = .ok key)
    (f : StoreFaults) (r : Reader) (published : List StoreQueuedPayload) :
    Honest ⟨(storeBlobFromReader w.objects f key tenantID r).2, published⟩ ↔
      ∀ sent, committed f key tenantID r = some sent → digestOf sent = digest := by
  rw [storeBlobFromReader_objects]
  cases committed f key tenantID r with
  | none => exact iff_of_true h (fun _ hnone => nomatch hnone)
  | some sent =>
    rw [Option.elim_some, honest_commit_iff h hre hkey]
    simp

section Histories

variable (maxBytes : Nat) (isUUID : String → Bool)

/-- The event is retried, the upstream answers with this body, and storage takes what of it comes
through the limit. -/
structure Delivery.Stores (d : Delivery) (body : Reader) : Prop where
  event : d.payload.blobDigest ≠ "" ∧ d.payload.image ≠ ""
  tenant : d.payload.tenantID ≠ "" ∧ isUUID d.payload.tenantID = true
  keyed : ∃ key, blobKey d.payload.tenantID d.payload.blobDigest = .ok key
  known : d.upstreamKnown = true
  answered : ∃ headers, d.upstream = .response 200 headers body
  ended : body.complete = true ∨ maxBytes ≤ body.content.length
  taken : d.faults.opens = true ∧ d.faults.sendsMeta = true ∧ d.faults.close ≠ .refused ∧
    ∀ i < (limitReader maxBytes body).messages.length, d.faults.sends i = true

/-- What the upstream sends for an event that was published has, up to the limit, the digest of the
event. -/
def Faithful (w : World) : Action → Prop
  | .getBlob _ => True
  | .storeQueued d =>
    d.payload ∈ w.published → ∀ body, d.Stores maxBytes isUUID body →
      digestOf (body.content.take maxBytes) = d.payload.blobDigest

def EventsFormed (w : World) : Prop :=
  ∀ p ∈ w.published, matchesDigestRE p.blobDigest = true

variable {maxBytes : Nat} {isUUID : String → Bool} {w : World}

theorem storeInBackground_published (g : GetBlob) (key : String) (body : Reader) :
    ∀ p ∈ (storeInBackground w g key body).published,
      p ∈ w.published ∨ p.blobDigest = g.digest := by
  intro p hp
  unfold storeInBackground at hp
  simp only at hp
  split_ifs at hp
  · rcases mem_cons.mp hp with rfl | hp
    · exact Or.inr rfl
    · exact Or.inl hp
  · exact Or.inl hp

theorem handleGetBlob_cases (g : GetBlob) :
    (handleGetBlob maxBytes w g).2 = w ∨
      ∃ key body, matchesDigestRE g.digest = true ∧ blobKey g.tenantID g.digest = .ok key ∧
        (handleGetBlob maxBytes w g).2 = storeInBackground w g key body := by
  unfold handleGetBlob
  by_cases hre : matchesDigestRE g.digest = true
  · cases hkey : blobKey g.tenantID g.digest with
    | error e => exact Or.inl (by simp [hre])
    | ok key =>
      by_cases hfound : g.found = true
      · exact Or.inl (by simp [hre, hfound])
      · cases hfetch : fetchBlob maxBytes g.upstream with
        | error e => cases e <;> exact Or.inl (by simp [hre, hfound])
        | ok blob => exact Or.inr ⟨key, blob.body, hre, rfl, by simp [hre, hfound]⟩
  · exact Or.inl (by simp [hre])

theorem eventsFormed_step (h : EventsFormed w) (a : Action) :
    EventsFormed (step maxBytes isUUID w a) := by
  cases a with
  | getBlob g =>
    show EventsFormed (handleGetBlob maxBytes w g).2
    rcases handleGetBlob_cases (w := w) g with hsame | ⟨key, body, hre, _, hstored⟩
    · rw [hsame]
      exact h
    · rw [hstored]
      intro p hp
      rcases storeInBackground_published g key body p hp with hp | hdigest
      · exact h p hp
      · rw [hdigest]
        exact hre
  | storeQueued d =>
    simp only [step]
    split_ifs
    · exact h
    · exact h

theorem honest_getBlob (h : Honest w) (g : GetBlob) : Honest (handleGetBlob maxBytes w g).2 := by
  rcases handleGetBlob_cases (w := w) g with hsame | ⟨key, body, hre, hkey, hstored⟩
  · rw [hsame]
    exact h
  · rw [hstored]
    unfold storeInBackground
    simp only
    have hverified : ∀ sent,
        committed g.faults key g.tenantID (pipe g.clientTakes g.digest body) = some sent →
          digestOf sent = g.digest := fun sent hsent => getBlob_stores hre hsent
    split_ifs
    · exact (honest_store_iff h hre hkey ..).mpr hverified
    · exact (honest_store_iff h hre hkey ..).mpr hverified

theorem validateTenantKey_blobKey (h : blobKey tenantID digest = .ok key) :
    validateTenantKey tenantID key = .ok () ↔ tenantID ≠ "" := by
  have hunder := blobKey_under h
  have hkey : key ≠ "" := by
    rintro rfl
    have hlen := (List.isPrefixOf_iff_prefix.mp hunder).length_le
    simp [String.toList_append] at hlen
  unfold validateTenantKey
  by_cases htenant : tenantID = ""
  · simp [htenant]
  · rw [if_neg htenant, if_neg hkey, if_pos]
    · simp [htenant]
    · exact any_eq_true.mpr ⟨"blobs/", by simp [keyRoots], hunder⟩

theorem honest_storeQueued_iff (h : Honest w) {d : Delivery}
    (hre : matchesDigestRE d.payload.blobDigest = true) :
    Honest { w with objects := (handleStoreQueued maxBytes isUUID w.objects d).2 } ↔
      ∀ body, d.Stores maxBytes isUUID body →
        digestOf (body.content.take maxBytes) = d.payload.blobDigest := by
  have hsame : Honest { w with objects := w.objects } := h
  unfold handleStoreQueued retryStoreBlob
  split_ifs with hempty hknown
  · refine iff_of_true hsame fun body hs => ?_
    exact absurd hempty (not_or.mpr hs.event)
  · refine iff_of_true hsame fun body hs => ?_
    simp [hs.tenant.2, hs.known] at hknown
  · cases hfetch : fetchBlob maxBytes d.upstream with
    | error e =>
      refine iff_of_true hsame fun body hs => ?_
      obtain ⟨headers, hup⟩ := hs.answered
      simp [hup, fetchBlob, okResponse] at hfetch
    | ok blob =>
      obtain ⟨headers, body, hup, hblob⟩ := fetchBlob_ok hfetch
      cases hkey : blobKey d.payload.tenantID d.payload.blobDigest with
      | error e =>
        refine iff_of_true hsame fun body hs => ?_
        obtain ⟨key, hok⟩ := hs.keyed
        cases hkey.symm.trans hok
      | ok key =>
        refine (honest_store_iff h hre hkey d.faults blob.body w.published).trans ?_
        simp only [hblob, committed_eq_some_iff, limitReader_complete, limitReader_content,
          validateTenantKey_blobKey hkey]
        constructor
        · intro hall body' hs
          obtain ⟨headers', hup'⟩ := hs.answered
          cases hup.symm.trans hup'
          exact hall _ ⟨hs.taken, hs.tenant.1, hs.ended, rfl⟩
        · rintro hall sent ⟨htaken, htenant, hended, rfl⟩
          simp only [Bool.or_eq_true, Bool.not_eq_true', not_or, Bool.not_eq_false] at hknown
          exact hall body ⟨not_or.mp hempty, ⟨htenant, hknown.1⟩, ⟨key, hkey⟩, hknown.2,
            ⟨headers, hup⟩, hended, htaken⟩

/-- **When cached blobs are what their digests say.** -/
theorem blobs_honest_iff (maxBytes : Nat) (isUUID : String → Bool) (acts : List Action) :
    (∀ soon rest, acts = soon ++ rest → Honest (run (step maxBytes isUUID) start soon)) ↔
      Guarded (step maxBytes isUUID) (Faithful maxBytes isUUID) start acts := by
  apply invariant_along_iff (W := EventsFormed)
  · intro w a h
    exact eventsFormed_step h a
  · intro w a hformed h
    cases a with
    | getBlob g => exact iff_of_true (honest_getBlob h g) trivial
    | storeQueued d =>
      simp only [step, Faithful]
      split_ifs with hpublished
      · simp only [hpublished, forall_const]
        exact honest_storeQueued_iff h (hformed d.payload hpublished)
      · simp [hpublished, h]
  · intro p hp
    cases hp
  · intro tenantID digest key content _ _ hcontent
    cases hcontent

end Histories

def noFaults : StoreFaults := ⟨true, true, fun _ => true, .stored⟩

def plainHeaders : Headers := ⟨"", -1, "", ""⟩

def sampleTenant : String := "00000000-0000-4000-8000-000000000001"

def emptyKey : String :=
  "blobs/" ++ sampleTenant ++ "/sha256/e3/" ++ trimPrefix emptyDigest "sha256:"

def unstored : GetBlob where
  tenantID := sampleTenant
  upstreamName := "hub"
  image := "library/app"
  digest := emptyDigest
  found := false
  upstream := .response 200 plainHeaders ⟨[], true⟩
  clientTakes _ := true
  faults := { noFaults with opens := false }
  publishes := true

def redelivered : Delivery where
  payload := ⟨sampleTenant, "hub", emptyDigest, "library/app"⟩
  upstreamKnown := true
  upstream := .response 200 plainHeaders ⟨[[1]], true⟩
  faults := noFaults

theorem retry_commits_other_bytes :
    blobKey sampleTenant emptyDigest = .ok emptyKey ∧ (run (step 1024 (· = sampleTenant)) start
        [.getBlob unstored, .storeQueued redelivered]).objects emptyKey = some [1] ∧
      ¬ Honest (run (step 1024 (· = sampleTenant)) start
        [.getBlob unstored, .storeQueued redelivered]) := by
  have hkey : blobKey sampleTenant emptyDigest = .ok emptyKey := by decide +kernel
  have hobject : (run (step 1024 (· = sampleTenant)) start
      [.getBlob unstored, .storeQueued redelivered]).objects emptyKey = some [1] := by
    decide +kernel
  have hother : digestOf [1] ≠ emptyDigest := by decide +kernel
  refine ⟨hkey, hobject, ?_⟩
  intro hhonest
  exact hother (hhonest sampleTenant emptyDigest emptyKey [1] (by decide +kernel) hkey hobject)

end OciJanus.Proxy.Blobs
