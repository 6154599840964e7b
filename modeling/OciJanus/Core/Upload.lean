import OciJanus.Core.Storage
import OciJanus.Verified.ExpiringStore

/-!
# Blob uploads of registry-core

The digest is compared only after the stream to the blob's key has been closed.
-/

namespace OciJanus.Core.Upload

open Verified Sha256 GoStrings ExpiringStore Core.Storage Function List

def digestOf (content : Bytes) : String :=
  "sha256:" ++ String.ofList ((sha256 content).flatMap fun b =>
    [Nat.digitChar (b.toNat / 16), Nat.digitChar (b.toNat % 16)])

inductive SliceError where
  | outOfRange
  | notUTF8
  deriving DecidableEq

def blobKey (tenantID digest : String) : Except SliceError String :=
  if byteLen (trimPrefix digest "sha256:") < 2 then .error .outOfRange
  else
    match takeBytes 2 (trimPrefix digest "sha256:") with
    | none => .error .notUTF8
    | some first =>
      .ok ("blobs/" ++ tenantID ++ "/sha256/" ++ first ++ "/" ++ trimPrefix digest "sha256:")

def seqKey (tenantID uploadUUID : String) (n : Nat) : String :=
  "uploads/" ++ tenantID ++ "/" ++ uploadUUID ++ "/" ++ Nat.repr n

variable {tenantID key uploadUUID : String}

theorem blobKey_under {digest : String} (h : blobKey tenantID digest = .ok key) :
    UnderBlobs tenantID key := by
  unfold blobKey at h
  split_ifs at h
  split at h
  · cases h
  · rename_i first _
    cases h
    refine hasPrefix_iff.mpr ⟨"sha256/" ++ first ++ "/" ++ trimPrefix digest "sha256:", ?_⟩
    apply String.toList_inj.mp
    simp [String.toList_append]

theorem blobKey_suffix {digest : String} (h : blobKey tenantID digest = .ok key) :
    ∃ front, key = front ++ trimPrefix digest "sha256:" := by
  unfold blobKey at h
  split_ifs at h
  split at h
  · cases h
  · cases h
    exact ⟨_, rfl⟩

theorem seqKey_ne_blob (h : UnderBlobs tenantID key) (t u : String)
    (n : Nat) : seqKey t u n ≠ key := by
  obtain ⟨rest, rfl⟩ := hasPrefix_iff.mp h
  intro heq
  have hhead := congrArg (fun s => s.toList.head?) heq
  simp [seqKey, String.toList_append] at hhead

structure UploadState where
  (uuid tenantID repoName : String)
  offset : Nat
  chunkKeys : List String
  temporary : ∀ k ∈ chunkKeys, ∃ t u n, k = seqKey t u n

/-- The objects in storage and the sessions in Redis. -/
structure World where
  objects : Objects
  uploads : Store String UploadState
  now : Int

def uploadTTL : Int := 3600000000000

def newUpload (tenantID repoName id : String) : UploadState :=
  ⟨id, tenantID, repoName, 0, [], nofun⟩

def initiateUpload (w : World) (tenantID repoName id : String) : World :=
  { w with uploads := w.uploads.set w.now id (newUpload tenantID repoName id) uploadTTL }

def getUpload (w : World) (uploadUUID : String) : Option UploadState :=
  w.uploads.get w.now uploadUUID

def updateUpload (w : World) (st : UploadState) : World :=
  { w with uploads := w.uploads.set w.now st.uuid st uploadTTL }

def cancelUpload (w : World) (uploadUUID : String) : World :=
  { w with uploads := w.uploads.del uploadUUID }

def UploadState.extend (st : UploadState) (uploadUUID : String) (written : Nat) : UploadState where
  uuid := st.uuid
  tenantID := st.tenantID
  repoName := st.repoName
  offset := st.offset + written
  chunkKeys := st.chunkKeys ++ [seqKey st.tenantID uploadUUID st.chunkKeys.length]
  temporary := by
    intro k hk
    rcases mem_append.mp hk with hold | hnew
    · exact st.temporary k hold
    · exact ⟨st.tenantID, uploadUUID, st.chunkKeys.length, mem_singleton.mp hnew⟩

structure PutFaults where
  (opens metaSent : Bool)
  sends : Nat → Bool
  close : Close

structure Pipe where
  sent : Bytes
  messages : Nat

def forward (sends : Nat → Bool) (p : Pipe) : List Bytes → Option Pipe
  | [] => some p
  | data :: rest =>
    if sends p.messages then forward sends ⟨p.sent ++ data, p.messages + 1⟩ rest else none

variable {p : Pipe}

inductive AppendError where
  | uploadNotFound
  | openStream
  | sendMeta
  | sendChunk
  | readChunk
  | closeStream

def putChunk (f : PutFaults) (o : Objects) (tenantID key : String) (chunk : Reader) :
    Except AppendError Nat × Objects :=
  if !f.opens then (.error .openStream, o)
  else if !f.metaSent then (.error .sendMeta, o)
  else
    match forward f.sends ⟨[], 0⟩ chunk.messages with
    | none => (.error .sendChunk, o)
    | some p =>
      if !chunk.complete then (.error .readChunk, o)
      else
        match closePut o tenantID key p.sent f.close with
        | (false, o') => (.error .closeStream, o')
        | (true, o') => (.ok p.sent.length, o')

def appendChunk (f : PutFaults) (w : World) (uploadUUID : String) (chunk : Reader) :
    Except AppendError Nat × World :=
  match getUpload w uploadUUID with
  | none => (.error .uploadNotFound, w)
  | some st =>
    match putChunk f w.objects st.tenantID
        (seqKey st.tenantID uploadUUID st.chunkKeys.length) chunk with
    | (.error e, o) => (.error e, { w with objects := o })
    | (.ok written, o) =>
      (.ok written, updateUpload { w with objects := o } (st.extend uploadUUID written))

variable {o : Objects}

structure Faults extends PutFaults where
  breaks : String → Option Nat
  deletes : String → Bool

inductive CompleteError where
  | uploadNotFound
  | openStream
  | sendMeta
  | getChunk (key : String)
  | forwardChunk
  | sendFinal
  | readFinal
  | closeStream
  | digestMismatch
  deriving DecidableEq

inductive CompleteResult where
  | ok (digest : String) (totalBytes : Nat)
  | error (e : CompleteError)
  | panics
  deriving DecidableEq

def replay (f : Faults) (o : Objects) (tenantID : String) :
    List String → Pipe → Except CompleteError Pipe
  | [], p => .ok p
  | key :: rest, p =>
    match forward f.sends p (getBlob o tenantID key (f.breaks key)).pieces with
    | none => .error .forwardChunk
    | some p' =>
      if (getBlob o tenantID key (f.breaks key)).complete then replay f o tenantID rest p'
      else .error (.getChunk key)

def assemble (f : Faults) (o : Objects) (st : UploadState) (finalChunk : Reader) :
    Except CompleteError Pipe :=
  match replay f o st.tenantID st.chunkKeys ⟨[], 0⟩ with
  | .error e => .error e
  | .ok p =>
    match forward f.sends p finalChunk.messages with
    | none => .error .sendFinal
    | some p' => if finalChunk.complete then .ok p' else .error .readFinal

def cleanUp (f : Faults) (o : Objects) (st : UploadState) : Objects :=
  st.chunkKeys.foldl (fun o key => deleteBlob o st.tenantID key (f.deletes key)) o

def commit (f : Faults) (w : World) (uploadUUID expectedDigest key : String) (st : UploadState)
    (p : Pipe) : CompleteResult × World :=
  match closePut w.objects st.tenantID key p.sent f.close with
  | (false, o) => (.error .closeStream, { w with objects := o })
  | (true, o) =>
    if expectedDigest ≠ "" ∧ digestOf p.sent ≠ expectedDigest then
      (.error .digestMismatch, { w with objects := deleteBlob o st.tenantID key (f.deletes key) })
    else
      (.ok (digestOf p.sent) p.sent.length,
        { w with objects := cleanUp f o st, uploads := w.uploads.del uploadUUID })

def completeUpload (f : Faults) (w : World) (uploadUUID expectedDigest : String)
    (finalChunk : Reader) : CompleteResult × World :=
  match getUpload w uploadUUID with
  | none => (.error .uploadNotFound, w)
  | some st =>
    match blobKey st.tenantID expectedDigest with
    | .error .outOfRange => (.panics, w)
    | .error .notUTF8 => if f.opens then (.error .sendMeta, w) else (.error .openStream, w)
    | .ok key =>
      if !f.opens then (.error .openStream, w)
      else if !f.metaSent then (.error .sendMeta, w)
      else
        match assemble f w.objects st finalChunk with
        | .error e => (.error e, w)
        | .ok p => commit f w uploadUUID expectedDigest key st p

variable {f : Faults} {st : UploadState} {finalChunk : Reader}

theorem assemble_ne_notFound (f : Faults) (o : Objects) (st : UploadState) (finalChunk : Reader) :
    assemble f o st finalChunk ≠ .error .uploadNotFound := by
  have hreplay : ∀ keys p, replay f o st.tenantID keys p ≠ .error .uploadNotFound := by
    intro keys
    induction keys with
    | nil => exact fun p => nofun
    | cons key rest ih =>
      intro p
      rw [replay]
      split
      · nofun
      · split_ifs
        · exact ih _
        · nofun
  unfold assemble
  split
  · rename_i e he
    intro h
    cases h
    exact hreplay _ _ he
  · split
    · nofun
    · split_ifs <;> nofun

/-- The stream opens, and the chunks and the body arrive on it. -/
def Streamed (f : Faults) (w : World) (st : UploadState) (finalChunk : Reader) (p : Pipe) : Prop :=
  f.opens = true ∧ f.metaSent = true ∧ assemble f w.objects st finalChunk = .ok p

/-- What `CompleteUpload` does, by where it ends. -/
inductive Outcome (f : Faults) (w : World) (uploadUUID expectedDigest : String)
    (finalChunk : Reader) (st : UploadState) : CompleteResult × World → Prop
  | untouched (r : CompleteResult) (failed : ∀ d n, r ≠ .ok d n)
      (found : r ≠ .error .uploadNotFound) :
      Outcome f w uploadUUID expectedDigest finalChunk st (r, w)
  | unanswered (key : String) (p : Pipe) (streamed : Streamed f w st finalChunk p)
      (lost : f.close = .lost) (keyed : blobKey st.tenantID expectedDigest = .ok key)
      (valid : validateTenantKey st.tenantID key = .ok ()) :
      Outcome f w uploadUUID expectedDigest finalChunk st
        (.error .closeStream, { w with objects := update w.objects key (some p.sent) })
  | mismatched (key : String) (p : Pipe) (streamed : Streamed f w st finalChunk p)
      (stored : f.close = .stored) (keyed : blobKey st.tenantID expectedDigest = .ok key)
      (valid : validateTenantKey st.tenantID key = .ok ())
      (digest : digestOf p.sent ≠ expectedDigest) :
      Outcome f w uploadUUID expectedDigest finalChunk st (.error .digestMismatch,
        { w with
          objects :=
            deleteBlob (update w.objects key (some p.sent)) st.tenantID key
              (f.deletes key) })
  | completed (key : String) (p : Pipe) (keyed : blobKey st.tenantID expectedDigest = .ok key)
      (assembled : assemble f w.objects st finalChunk = .ok p)
      (digest : digestOf p.sent = expectedDigest) :
      Outcome f w uploadUUID expectedDigest finalChunk st (.ok (digestOf p.sent) p.sent.length,
        { w with
          objects := cleanUp f (update w.objects key (some p.sent)) st
          uploads := w.uploads.del uploadUUID })

theorem blobKey_empty (tenantID : String) : blobKey tenantID "" = .error .outOfRange := by
  rfl

variable {w : World}

theorem commit_outcome {expectedDigest : String}
    (hkey : blobKey st.tenantID expectedDigest = .ok key)
    (hstreamed : Streamed f w st finalChunk p) :
    Outcome f w uploadUUID expectedDigest finalChunk st
      (commit f w uploadUUID expectedDigest key st p) := by
  have hexpected : expectedDigest ≠ "" := by
    rintro rfl
    rw [blobKey_empty] at hkey
    cases hkey
  unfold commit closePut
  split
  · rename_i hclose
    split at hclose
    · cases hclose
      exact .untouched _ nofun nofun
    · cases hclose
    · cases hclose
      exact .untouched _ nofun nofun
    · rename_i hvalid hlost
      cases hclose
      exact .unanswered key p hstreamed hlost hkey hvalid
  · rename_i hclose
    split at hclose
    · cases hclose
    · rename_i hvalid hstored
      cases hclose
      by_cases hdigest : digestOf p.sent = expectedDigest
      · rw [if_neg (fun h => h.2 hdigest)]
        exact .completed key p hkey hstreamed.2.2 hdigest
      · rw [if_pos ⟨hexpected, hdigest⟩]
        exact .mismatched key p hstreamed hstored hkey hvalid hdigest
    · cases hclose
    · cases hclose

theorem completeUpload_outcome
    (hst : getUpload w uploadUUID = some st) (f : Faults) (expectedDigest : String)
    (finalChunk : Reader) :
    Outcome f w uploadUUID expectedDigest finalChunk st
      (completeUpload f w uploadUUID expectedDigest finalChunk) := by
  unfold completeUpload
  rw [hst]
  simp only
  split
  · exact .untouched _ nofun nofun
  · split_ifs <;> exact .untouched _ nofun nofun
  · rename_i key hkey
    split_ifs with hopens hmeta
    · exact .untouched _ nofun nofun
    · exact .untouched _ nofun nofun
    · split
      · rename_i e he
        refine .untouched _ nofun ?_
        intro h
        cases h
        exact assemble_ne_notFound _ _ _ _ he
      · rename_i p hp
        exact commit_outcome hkey ⟨by simpa using hopens, by simpa using hmeta, hp⟩

theorem cleanUp_ne (f : Faults) (o : Objects) (st : UploadState) {k : String}
    (hk : k ∉ st.chunkKeys) : cleanUp f o st k = o k := by
  unfold cleanUp
  generalize st.chunkKeys = keys at hk
  induction keys generalizing o with
  | nil => rfl
  | cons key rest ih =>
    rw [foldl_cons, ih _ (not_mem_of_not_mem_cons hk)]
    exact deleteBlob_ne _ _ _ (ne_of_not_mem_cons hk)

theorem cleanUp_blob (f : Faults) (o : Objects) (st : UploadState)
    (hkey : UnderBlobs tenantID key) : cleanUp f o st key = o key := by
  refine cleanUp_ne f o st fun hmem => ?_
  obtain ⟨t, u, n, rfl⟩ := st.temporary key hmem
  exact seqKey_ne_blob hkey t u n rfl

theorem completeUpload_frame (f : Faults) (w : World) (uploadUUID expectedDigest : String)
    (finalChunk : Reader) {w' : World}
    (h : (completeUpload f w uploadUUID expectedDigest finalChunk).2 = w') :
    (w'.uploads = w.uploads ∧ ∀ t u n, w'.objects (seqKey t u n) = w.objects (seqKey t u n)) ∨
      ∃ st, getUpload w uploadUUID = some st ∧ w'.uploads = w.uploads.del uploadUUID ∧
        ∀ t u n, seqKey t u n ∉ st.chunkKeys →
          w'.objects (seqKey t u n) = w.objects (seqKey t u n) := by
  cases hst : getUpload w uploadUUID with
  | none =>
    rw [completeUpload, hst] at h
    subst h
    exact Or.inl ⟨rfl, fun _ _ _ => rfl⟩
  | some st =>
    have hout := completeUpload_outcome hst f expectedDigest finalChunk
    have hne : ∀ {key}, blobKey st.tenantID expectedDigest = .ok key →
        ∀ t u n, seqKey t u n ≠ key :=
      fun hkey => seqKey_ne_blob (blobKey_under hkey)
    generalize completeUpload f w uploadUUID expectedDigest finalChunk = r at *
    subst h
    cases hout with
    | untouched r _ _ => exact Or.inl ⟨rfl, fun _ _ _ => rfl⟩
    | unanswered key p _ _ hkey _ =>
      exact Or.inl ⟨rfl, fun t u n => update_of_ne (hne hkey t u n) ..⟩
    | mismatched key p _ _ hkey _ _ =>
      refine Or.inl ⟨rfl, fun t u n => ?_⟩
      show deleteBlob _ _ _ _ _ = _
      rw [deleteBlob_ne _ _ _ (hne hkey t u n), update_of_ne (hne hkey t u n)]
    | completed key p hkey _ _ =>
      refine Or.inr ⟨st, rfl, rfl, fun t u n hmem => ?_⟩
      show cleanUp _ _ _ _ = _
      rw [cleanUp_ne f _ st hmem, update_of_ne (hne hkey t u n)]

def Safe (f : Faults) (w : World) (uploadUUID expectedDigest : String) (finalChunk : Reader) :
    Prop :=
  ∀ st, getUpload w uploadUUID = some st →
    (∀ e, (completeUpload f w uploadUUID expectedDigest finalChunk).1 = .error e →
      ∀ key, UnderBlobs st.tenantID key →
        (completeUpload f w uploadUUID expectedDigest finalChunk).2.objects key = w.objects key) ∧
    ∀ d n, (completeUpload f w uploadUUID expectedDigest finalChunk).1 = .ok d n →
      ∃ key content, blobKey st.tenantID d = .ok key ∧
        (completeUpload f w uploadUUID expectedDigest finalChunk).2.objects key = some content ∧
          digestOf content = d

/-- What a call stores before it fails was there before: if the answer to the close is lost, these
bytes; if their digest is another one, no object, or these bytes if they cannot be deleted. -/
def MeetsItself (f : Faults) (w : World) (uploadUUID expectedDigest : String)
    (finalChunk : Reader) : Prop :=
  ∀ st key p, getUpload w uploadUUID = some st → blobKey st.tenantID expectedDigest = .ok key →
    validateTenantKey st.tenantID key = .ok () → Streamed f w st finalChunk p →
      (f.close = .lost → w.objects key = some p.sent) ∧
      (f.close = .stored → digestOf p.sent ≠ expectedDigest →
        w.objects key = if f.deletes key then none else some p.sent)

/-- **When a failed upload does no harm.** -/
theorem completeUpload_safe_iff (f : Faults) (w : World) (uploadUUID expectedDigest : String)
    (finalChunk : Reader) :
    Safe f w uploadUUID expectedDigest finalChunk ↔
      MeetsItself f w uploadUUID expectedDigest finalChunk := by
  unfold Safe MeetsItself
  constructor
  · intro hsafe st key p hst hkey hvalid ⟨hopens, hmeta, hassemble⟩
    have hcommit : completeUpload f w uploadUUID expectedDigest finalChunk =
        commit f w uploadUUID expectedDigest key st p := by
      simp [completeUpload, hst, hkey, hopens, hmeta, hassemble]
    have hsame := fun e h => (hsafe st hst).1 e h key (blobKey_under hkey)
    rw [hcommit] at hsame
    refine ⟨fun hlost => ?_, fun hstored hdigest => ?_⟩
    · have hstored := hsame .closeStream
      simp only [commit, closePut, hvalid, hlost, update_self, forall_const] at hstored
      exact hstored.symm
    · have hexpected : expectedDigest ≠ "" := by
        rintro rfl
        rw [blobKey_empty] at hkey
        cases hkey
      have hmismatch : commit f w uploadUUID expectedDigest key st p = (.error .digestMismatch,
          { w with
            objects :=
              deleteBlob (update w.objects key (some p.sent)) st.tenantID key
                (f.deletes key) }) := by
        simp [commit, closePut, hvalid, hstored, hexpected, hdigest]
      rw [hmismatch] at hsame
      rw [← hsame _ rfl]
      exact deleteBlob_update w.objects (f.deletes key) hvalid
  · intro hmeets st hst
    have hout := completeUpload_outcome hst f expectedDigest finalChunk
    have hmeets := fun key p => hmeets st key p hst
    generalize completeUpload f w uploadUUID expectedDigest finalChunk = r at *
    cases hout with
    | untouched r hfailed _ => exact ⟨fun _ _ _ _ => rfl, fun d n h => absurd h (hfailed d n)⟩
    | unanswered key p hstreamed hlost hkey hvalid =>
      refine ⟨fun _ _ k _ => ?_, nofun⟩
      by_cases hk : k = key
      · subst hk
        exact (update_self ..).trans ((hmeets k p hkey hvalid hstreamed).1 hlost).symm
      · exact update_of_ne hk ..
    | mismatched key p hstreamed hstored hkey hvalid hdigest =>
      refine ⟨fun _ _ k _ => ?_, nofun⟩
      show deleteBlob _ st.tenantID key (f.deletes key) k = w.objects k
      by_cases hk : k = key
      · subst hk
        rw [deleteBlob_update _ _ hvalid, (hmeets k p hkey hvalid hstreamed).2 hstored hdigest]
      · rw [deleteBlob_ne _ _ _ hk, update_of_ne hk]
    | completed key p hkey _ hdigest =>
      refine ⟨nofun, fun d n h => ?_⟩
      cases h
      refine ⟨key, p.sent, by rw [hdigest]; exact hkey, ?_, rfl⟩
      show cleanUp f _ st key = _
      rw [cleanUp_blob f _ st (blobKey_under hkey), update_self]

def noFaults : Faults where
  opens := true
  metaSent := true
  sends := fun _ => true
  close := .stored
  breaks := fun _ => none
  deletes := fun _ => true

def sessionOver (o : Objects) : World :=
  initiateUpload ⟨o, Store.empty, 0⟩ "t" "a/b" "u1"

def emptyDigest : String :=
  "sha256:e3b0c44298fc1c149afbf4c8996fb92427ae41e4649b934ca495991b7852b855"

def emptyBlobStored : Objects :=
  update (fun _ => none)
    "blobs/t/sha256/e3/e3b0c44298fc1c149afbf4c8996fb92427ae41e4649b934ca495991b7852b855" (some [])

theorem wrong_body_destroys_blob :
    ¬ ∀ (f : Faults) (w : World) (uploadUUID expectedDigest : String) (finalChunk : Reader),
      f.close ≠ .lost → (∀ key, f.deletes key = true) →
        Safe f w uploadUUID expectedDigest finalChunk := by
  intro h
  have hsafe := h noFaults (sessionOver emptyBlobStored) "u1" emptyDigest ⟨[[1]], true⟩ nofun
    (fun _ => rfl) _ rfl
  have hsame := hsafe.1 .digestMismatch (by decide +kernel)
    "blobs/t/sha256/e3/e3b0c44298fc1c149afbf4c8996fb92427ae41e4649b934ca495991b7852b855"
    (by decide +kernel)
  exact absurd hsame (by decide +kernel)

end OciJanus.Core.Upload
