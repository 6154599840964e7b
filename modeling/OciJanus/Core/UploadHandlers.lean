import OciJanus.Core.Access
import OciJanus.Core.Upload
import OciJanus.Verified.MachineInt
import OciJanus.Verified.Run

/-!
# The HTTP handlers of uploads

Each handler asks for `push` on the name in the path and then looks the session up by its uuid
alone.
-/

namespace OciJanus.Core.UploadHandlers

open Verified GoStrings ExpiringStore MachineInt Run Auth.Token Core.Access Core.Storage
  Core.Upload

inductive Method where
  | get
  | patch
  | put
  | delete

structure Request where
  method : Method
  (name uploadUUID : String)
  claims : Option TokenClaims
  (contentRange digest : String)
  contentLength : Int
  body : Reader

structure InitiateRequest where
  name : String
  claims : Option TokenClaims
  (mount fromRepo : String)

structure Response where
  status : Nat
  error : Option (String × String) := none
  challenge : Option String := none
  location : Option String := none
  range : Option String := none
  uploadUUID : Option String := none
  contentDigest : Option String := none
  deriving DecidableEq

inductive Reply where
  | response (r : Response)
  | aborted
  deriving DecidableEq

def ociError (statusCode : Nat) (code message : String) : Response where
  status := statusCode
  error := some (code, message)

def challengeAuth (scope : String) : Response where
  status := 401
  error := some ("UNAUTHORIZED", "authentication required")
  challenge := some scope

structure Env where
  permissions : TokenClaims → Option (List RepositoryAccess)
  quotaUsage : String → Option (Int × Int)

def requirePush (env : Env) (claims : Option TokenClaims) (name : String) :
    Except Response TokenClaims :=
  match claims with
  | none => .error (challengeAuth ("repository:" ++ name ++ ":push"))
  | some c =>
    if !hasAction c.access name "push" then
      .error (challengeAuth ("repository:" ++ name ++ ":push"))
    else if !(env.permissions c).any fun perms => checkAccess perms name "push" then
      .error (ociError 403 "DENIED" "access denied")
    else .ok c

def checkQuota (usage : Option (Int × Int)) (uploadSize : Int) : Bool :=
  match usage with
  | none => true
  | some (used, quota) => int64 (used + uploadSize) ≤ quota

def matchesDigestRE (digest : String) : Bool :=
  hasPrefix digest "sha256:" && (digest.toList.drop 7).length == 64 &&
    (digest.toList.drop 7).all fun c => c.isDigit || ('a' ≤ c && c ≤ 'f')

def parseContentRange (s : String) : Option (Int × Int) :=
  let s := trimPrefix s "bytes "
  let s := ((cut '/' s).map (·.1)).getD s
  match cut '-' s with
  | none => none
  | some (start, last) =>
    match parseInt 64 start, parseInt 64 last with
    | some start, some last => some (start, last)
    | _, _ => none

def uploadLocation (name uploadUUID : String) : String :=
  "/v2/" ++ name ++ "/blobs/uploads/" ++ uploadUUID

def uploadUnknown : Response := ociError 404 "BLOB_UPLOAD_UNKNOWN" "upload not found"

def internalError : Response := ociError 500 "UNKNOWN" "internal error"

section Handlers

variable (env : Env) (f : Faults) (w : World)

def mounts (claims : TokenClaims) (req : InitiateRequest) : Bool :=
  req.mount ≠ "" && req.fromRepo ≠ "" && matchesDigestRE req.mount &&
    match blobKey claims.tenantID req.mount with
    | .error _ => false
    | .ok key => (getBlob w.objects claims.tenantID key none).complete

def handleInitiateUpload (req : InitiateRequest) (id : String) : Response × World :=
  match requirePush env req.claims req.name with
  | .error r => (r, w)
  | .ok claims =>
    if mounts w claims req then
      (⟨201, none, none, some ("/v2/" ++ req.name ++ "/blobs/" ++ req.mount), none, none,
        some req.mount⟩, w)
    else
      (⟨202, none, none, some (uploadLocation req.name id), some "0-0", some id, none⟩,
        initiateUpload w claims.tenantID req.name id)

def handleGetUpload (req : Request) : Response :=
  match getUpload w req.uploadUUID with
  | none => uploadUnknown
  | some st =>
    ⟨204, none, none, some (uploadLocation req.name req.uploadUUID),
      some ("0-" ++ toString (st.offset - 1)), some req.uploadUUID, none⟩

def checkContentRange (req : Request) : Option Response :=
  if req.contentRange = "" then none
  else
    match parseContentRange req.contentRange with
    | none => some (ociError 416 "BLOB_UPLOAD_INVALID" "invalid Content-Range header")
    | some (start, _) =>
      match getUpload w req.uploadUUID with
      | none => some uploadUnknown
      | some st =>
        if start ≠ st.offset then
          some (ociError 416 "BLOB_UPLOAD_INVALID"
            "content range start does not match current offset")
        else none

def handlePatchUpload (req : Request) : Response × World :=
  match checkContentRange w req with
  | some r => (r, w)
  | none =>
    match appendChunk f.toPutFaults w req.uploadUUID req.body with
    | (.error .uploadNotFound, w') => (uploadUnknown, w')
    | (.error _, w') => (internalError, w')
    | (.ok _, w') =>
      let offset : Int := ((getUpload w' req.uploadUUID).map (·.offset)).getD 0
      (⟨202, none, none, some (uploadLocation req.name req.uploadUUID),
        some ("0-" ++ toString (offset - 1)), some req.uploadUUID, none⟩, w')

def quotaExceeded (claims : TokenClaims) (req : Request) : Bool :=
  match getUpload w req.uploadUUID with
  | some st =>
    !checkQuota (env.quotaUsage claims.tenantID)
      (if 0 < req.contentLength then int64 (st.offset + req.contentLength) else st.offset)
  | none => false

def handleCompleteUpload (claims : TokenClaims) (req : Request) : Reply × World :=
  if req.digest ≠ "" ∧ !matchesDigestRE req.digest then
    (.response (ociError 400 "DIGEST_INVALID" "invalid digest parameter"), w)
  else if quotaExceeded env w claims req then
    (.response (ociError 403 "DENIED" "tenant storage quota exceeded"), w)
  else
    match completeUpload f w req.uploadUUID req.digest req.body with
    | (.ok digest _, w') =>
      (.response ⟨201, none, none, some ("/v2/" ++ req.name ++ "/blobs/" ++ digest), none, none,
        some digest⟩, w')
    | (.error .uploadNotFound, w') => (.response uploadUnknown, w')
    | (.error .digestMismatch, w') =>
      (.response (ociError 400 "DIGEST_INVALID" "digest mismatch"), w')
    | (.error _, w') => (.response internalError, w')
    | (.panics, w') => (.aborted, w')

def handleCancelUpload (req : Request) : Response × World :=
  (⟨204, none, none, none, none, none, none⟩, cancelUpload w req.uploadUUID)

def handle (req : Request) : Reply × World :=
  match requirePush env req.claims req.name with
  | .error r => (.response r, w)
  | .ok claims =>
    match req.method with
    | .get => (.response (handleGetUpload w req), w)
    | .patch => ((.response (handlePatchUpload f w req).1), (handlePatchUpload f w req).2)
    | .put => handleCompleteUpload env f w claims req
    | .delete => ((.response (handleCancelUpload w req).1), (handleCancelUpload w req).2)

end Handlers

/-- The world without that session. -/
def forget (w : World) (uploadUUID : String) : World :=
  { w with uploads := w.uploads.del uploadUUID }

/-- The reply depends on the session, or the session is another one afterwards. -/
def Reaches (env : Env) (f : Faults) (w : World) (req : Request) : Prop :=
  (handle env f w req).1 ≠ (handle env f (forget w req.uploadUUID) req).1 ∨
    (handle env f w req).2.uploads.entry req.uploadUUID ≠ w.uploads.entry req.uploadUUID

def Confined (env : Env) (f : Faults) (w : World) (req : Request) : Prop :=
  ∀ c st, requirePush env req.claims req.name = .ok c →
    getUpload w req.uploadUUID = some st → Reaches env f w req →
      st.tenantID = c.tenantID ∧ st.repoName = req.name

/-- The world, and the sessions that `InitiateUpload` has handed out, the last one first: the id,
the tenant and the repository. -/
structure State where
  world : World
  handed : List (String × String × String)

inductive Action where
  | initiate (req : InitiateRequest) (id : String)
  | request (f : Faults) (req : Request)
  | tick (d : Nat)

def step (env : Env) (s : State) : Action → State
  | .initiate req id =>
    ⟨(handleInitiateUpload env s.world req id).2, match requirePush env req.claims req.name with
      | .error _ => s.handed
      | .ok claims =>
        if mounts s.world claims req then s.handed
        else (id, claims.tenantID, req.name) :: s.handed⟩
  | .request f req => { s with world := (handle env f s.world req).2 }
  | .tick d => { s with world := { s.world with now := s.world.now + d } }

def start (o : Objects) (now : Int) : State := ⟨⟨o, Store.empty, now⟩, []⟩

theorem appendChunk_uploads (f : PutFaults) (w : World) (uploadUUID : String) (chunk : Reader)
    {w' : World} (h : (appendChunk f w uploadUUID chunk).2 = w') :
    w'.uploads = w.uploads ∨ ∃ st n, getUpload w uploadUUID = some st ∧
      w'.uploads = w.uploads.set w.now st.uuid (st.extend uploadUUID n) uploadTTL := by
  subst h
  unfold appendChunk
  split
  · exact Or.inl rfl
  · rename_i st hst
    split
    · exact Or.inl rfl
    · rename_i written o _
      exact Or.inr ⟨st, written, hst, rfl⟩

theorem handlePatchUpload_world (f : Faults) (w : World) (req : Request) :
    (handlePatchUpload f w req).2 = w ∨ (handlePatchUpload f w req).2 =
        (appendChunk f.toPutFaults w req.uploadUUID req.body).2 := by
  unfold handlePatchUpload
  split
  · exact Or.inl rfl
  · split <;> rename_i heq <;> exact Or.inr (by rw [heq])

theorem handleCompleteUpload_world (env : Env) (f : Faults) (w : World) (claims : TokenClaims)
    (req : Request) :
    (handleCompleteUpload env f w claims req).2 = w ∨ (handleCompleteUpload env f w claims req).2 =
        (completeUpload f w req.uploadUUID req.digest req.body).2 := by
  unfold handleCompleteUpload
  split_ifs
  · exact Or.inl rfl
  · exact Or.inl rfl
  · split <;> rename_i heq <;> exact Or.inr (by rw [heq])

theorem handle_uploads (env : Env) (f : Faults) (w : World) (req : Request) :
    (handle env f w req).2.uploads = w.uploads ∨
      (handle env f w req).2.uploads = w.uploads.del req.uploadUUID ∨
        ∃ st n, getUpload w req.uploadUUID = some st ∧ (handle env f w req).2.uploads =
            w.uploads.set w.now st.uuid (st.extend req.uploadUUID n) uploadTTL := by
  unfold handle
  split
  · exact Or.inl rfl
  · rename_i claims _
    split
    · exact Or.inl rfl
    · simp only
      rcases handlePatchUpload_world f w req with hsame | happend
      · rw [hsame]
        exact Or.inl rfl
      · rw [happend]
        exact (appendChunk_uploads f.toPutFaults w req.uploadUUID req.body rfl).imp_right Or.inr
    · rcases handleCompleteUpload_world env f w claims req with hsame | hcomplete
      · rw [hsame]
        exact Or.inl rfl
      · rw [hcomplete]
        rcases completeUpload_frame f w req.uploadUUID req.digest req.body rfl with
          ⟨huploads, _⟩ | ⟨_, _, huploads, _⟩
        · exact Or.inl huploads
        · exact Or.inr (Or.inl huploads)
    · exact Or.inr (Or.inl rfl)

/-- A session belongs to the tenant and the repository that its id was last handed out for. -/
def Owned (s : State) : Prop :=
  ∀ u e, s.world.uploads.entry u = some e → e.value.uuid = u ∧
    s.handed.find? (·.1 = u) = some (u, e.value.tenantID, e.value.repoName)

variable {s : State}

theorem Owned.request (env : Env) (hs : Owned s) (f : Faults) (req : Request) :
    Owned { s with world := (handle env f s.world req).2 } := by
  intro u e he
  rcases handle_uploads env f s.world req with hsame | hdel | ⟨st, n, hst, hset⟩
  · rw [hsame] at he
    exact hs u e he
  · rw [hdel] at he
    by_cases hu : u = req.uploadUUID
    · subst hu
      rw [Store.del_entry_self] at he
      cases he
    · rw [Store.del_entry_ne _ hu] at he
      exact hs u e he
  · obtain ⟨d, hentry, _⟩ := Store.get_eq_some_iff.mp hst
    obtain ⟨hown, hhanded⟩ := hs req.uploadUUID _ hentry
    rw [hset, hown] at he
    by_cases hu : u = req.uploadUUID
    · subst hu
      rw [Store.set_entry_self] at he
      cases he
      exact ⟨hown, hhanded⟩
    · rw [Store.set_entry_ne _ _ _ _ hu] at he
      exact hs u e he

theorem Owned.initiate (hs : Owned s) (tenantID repoName id : String) :
    Owned ⟨initiateUpload s.world tenantID repoName id, (id, tenantID, repoName) :: s.handed⟩ := by
  intro u e he
  by_cases hu : u = id
  · subst hu
    have hentry : some ⟨newUpload tenantID repoName u, s.world.now + uploadTTL⟩ = some e :=
      (Store.set_entry_self ..).symm.trans he
    cases hentry
    exact ⟨rfl, List.find?_cons_of_pos (by simp)⟩
  · have hold : s.world.uploads.entry u = some e :=
      (Store.set_entry_ne _ _ _ _ hu).symm.trans he
    have hskip := List.find?_cons_of_neg (l := s.handed) (a := (id, tenantID, repoName))
      (p := (·.1 = u)) (by simpa using Ne.symm hu)
    exact ⟨(hs u e hold).1, hskip.trans (hs u e hold).2⟩

theorem Owned.step {env : Env} (hs : Owned s) (a : Action) : Owned (step env s a) := by
  cases a with
  | initiate req id =>
    simp only [UploadHandlers.step, handleInitiateUpload]
    split
    · exact hs
    · rename_i claims _
      split_ifs
      · exact hs
      · exact hs.initiate claims.tenantID req.name id
  | request f req => exact hs.request env f req
  | tick d => exact hs

/-- A PATCH or a PUT with a malformed header or parameter is refused before the session is read. -/
def Addresses (req : Request) : Prop :=
  match req.method with
  | .get | .delete => True
  | .patch => req.contentRange = "" ∨ (parseContentRange req.contentRange).isSome = true
  | .put => req.digest = "" ∨ matchesDigestRE req.digest = true

section Reach

variable {env : Env} {f : Faults} {w : World} {req : Request} {c : TokenClaims} {st : UploadState}

theorem getUpload_forget (w : World) (uploadUUID : String) :
    getUpload (forget w uploadUUID) uploadUUID = none := by
  simp [getUpload, forget, Store.get]

theorem handlePatchUpload_forget
    (h : req.contentRange = "" ∨ (parseContentRange req.contentRange).isSome = true) :
    (handlePatchUpload f (forget w req.uploadUUID) req).1 = uploadUnknown := by
  have hnone := getUpload_forget w req.uploadUUID
  by_cases hempty : req.contentRange = ""
  · simp [handlePatchUpload, checkContentRange, hempty, appendChunk, hnone]
  · obtain ⟨p, hp⟩ := Option.isSome_iff_exists.mp (h.resolve_left hempty)
    simp [handlePatchUpload, checkContentRange, hempty, hp, hnone]

theorem handlePatchUpload_ne (hst : getUpload w req.uploadUUID = some st) :
    (handlePatchUpload f w req).1 ≠ uploadUnknown := by
  have happend : ∀ w', appendChunk f.toPutFaults w req.uploadUUID req.body ≠
      (.error .uploadNotFound, w') := by
    intro w'
    have hput : ∀ o key, (putChunk f.toPutFaults w.objects o key req.body).1 ≠
        .error .uploadNotFound := by
      intro o key
      unfold putChunk
      repeat' split
      all_goals nofun
    unfold appendChunk
    simp only [hst]
    split
    · rename_i e _ he
      intro h
      cases h
      exact hput _ _ (congrArg Prod.fst he)
    · nofun
  unfold handlePatchUpload checkContentRange
  simp only [hst]
  split
  · rename_i r hr
    split_ifs at hr
    · split at hr
      · cases hr
        nofun
      · split_ifs at hr
        cases hr
        nofun
  · split
    · rename_i w' h
      exact absurd h (happend w')
    · nofun
    · simp [uploadUnknown, ociError]

theorem handleCompleteUpload_ne (hst : getUpload w req.uploadUUID = some st)
    (hdigest : req.digest = "" ∨ matchesDigestRE req.digest = true) :
    (handleCompleteUpload env f w c req).1 ≠ .response uploadUnknown := by
  have hfound : ∀ w', completeUpload f w req.uploadUUID req.digest req.body ≠
      (.error .uploadNotFound, w') := by
    intro w' h
    have hout := completeUpload_outcome hst f req.digest req.body
    rw [h] at hout
    cases hout with
    | untouched _ _ found => exact found rfl
  have hvalid : ¬ (req.digest ≠ "" ∧ (!matchesDigestRE req.digest) = true) := by
    rcases hdigest with h | h <;> simp [h]
  unfold handleCompleteUpload
  rw [if_neg hvalid]
  split_ifs
  · simp [uploadUnknown, ociError]
  · split
    · simp [uploadUnknown, ociError]
    · rename_i w' h
      exact absurd h (hfound w')
    · simp [uploadUnknown, ociError]
    · simp [uploadUnknown, internalError, ociError]
    · nofun

/-- A request that passes the access check reaches a session of that id, unless it is malformed. -/
theorem reaches_iff (hc : requirePush env req.claims req.name = .ok c)
    (hst : getUpload w req.uploadUUID = some st) : Reaches env f w req ↔ Addresses req := by
  have hnone := getUpload_forget w req.uploadUUID
  unfold Reaches Addresses
  cases hm : req.method with
  | get =>
    refine iff_of_true (Or.inl ?_) trivial
    simp [handle, hc, hm, handleGetUpload, hst, hnone, uploadUnknown, ociError]
  | patch =>
    by_cases h : req.contentRange = "" ∨ (parseContentRange req.contentRange).isSome = true
    · refine iff_of_true (Or.inl ?_) h
      simp [handle, hc, hm, handlePatchUpload_forget h, handlePatchUpload_ne hst]
    · obtain ⟨hrange, hparsed⟩ := not_or.mp h
      have hparsed := Option.not_isSome_iff_eq_none.mp hparsed
      refine iff_of_false ?_ h
      simp [handle, hc, hm, handlePatchUpload, checkContentRange, hrange, hparsed]
  | put =>
    by_cases h : req.digest = "" ∨ matchesDigestRE req.digest = true
    · refine iff_of_true (Or.inl ?_) h
      have hunknown : (handleCompleteUpload env f (forget w req.uploadUUID) c req).1 =
          .response uploadUnknown := by
        rcases h with h | h <;> simp [handleCompleteUpload, h, quotaExceeded, hnone, completeUpload]
      simp [handle, hc, hm, hunknown, handleCompleteUpload_ne hst h]
    · refine iff_of_false ?_ h
      simp [handle, hc, hm, handleCompleteUpload, not_or.mp h]
  | delete =>
    obtain ⟨d, hentry, _⟩ := Store.get_eq_some_iff.mp hst
    refine iff_of_true (Or.inr ?_) trivial
    simp [handle, hc, hm, handleCancelUpload, cancelUpload, hentry]

end Reach

/-- The session that the request reaches was last handed out for the tenant of its token and the
repository of its path. -/
def HandedTo (env : Env) (s : State) (req : Request) : Prop :=
  ∀ c, requirePush env req.claims req.name = .ok c → Addresses req →
    (getUpload s.world req.uploadUUID).isSome = true →
      ∀ p ∈ s.handed.find? (·.1 = req.uploadUUID), p.2 = (c.tenantID, req.name)

/-- **When a request stays with its own sessions**, at the end of any history. -/
theorem uploads_confined_iff (env : Env) (o : Objects) (now : Int) (acts : List Action) (f : Faults)
    (req : Request) :
    Confined env f (run (step env) (start o now) acts).world req ↔
      HandedTo env (run (step env) (start o now) acts) req := by
  have howned : Owned (run (step env) (start o now) acts) :=
    run_invariant (fun s a hs _ => hs.step a) nofun (guarded_of_forall fun _ _ => trivial)
  generalize run (step env) (start o now) acts = s at *
  have hhanded : ∀ st, getUpload s.world req.uploadUUID = some st →
      s.handed.find? (·.1 = req.uploadUUID) = some (req.uploadUUID, st.tenantID, st.repoName) := by
    intro st hst
    obtain ⟨d, hentry, _⟩ := Store.get_eq_some_iff.mp hst
    exact (howned req.uploadUUID _ hentry).2
  constructor
  · intro hconf c hc haddr hlive p hp
    obtain ⟨st, hst⟩ := Option.isSome_iff_exists.mp hlive
    cases (hhanded st hst).symm.trans hp
    obtain ⟨htenant, hrepo⟩ := hconf c st hc hst ((reaches_iff hc hst).mpr haddr)
    exact Prod.ext htenant hrepo
  · intro h c st hc hst hreach
    have hpair := h c hc ((reaches_iff hc hst).mp hreach) (by simp [hst]) _ (hhanded st hst)
    exact Prod.mk.inj hpair

def openEnv : Env where
  permissions := fun _ => some [⟨"repository", "*", ["push"]⟩]
  quotaUsage := fun _ => none

def pusher (tenantID name : String) : TokenClaims :=
  ⟨"u", tenantID, [⟨"repository", name, ["push"]⟩]⟩

def begun : Action := .initiate ⟨"a/b", some (pusher "t" "a/b"), "", ""⟩ "u1"

theorem foreign_request_reaches :
    ¬ ∃ m : Method, ∀ (env : Env) (o : Objects) (now : Int) (acts : List Action) (f : Faults)
      (req : Request), req.method = m →
        Confined env f (run (step env) (start o now) acts).world req := by
  rintro ⟨m, h⟩
  have hconf := h openEnv (fun _ => none) 0 [begun] noFaults
    ⟨m, "c/d", "u1", some (pusher "x" "c/d"), "", emptyDigest, 0, ⟨[], true⟩⟩ rfl
    (pusher "x" "c/d") _ rfl rfl
  have hreach : Reaches openEnv noFaults
      (run (step openEnv) (start (fun _ => none) 0) [begun]).world
      ⟨m, "c/d", "u1", some (pusher "x" "c/d"), "", emptyDigest, 0, ⟨[], true⟩⟩ := by
    cases m with
    | get | patch | put => exact Or.inl (by decide +kernel)
    | delete =>
      -- the answer is the same, but the session is gone
      exact Or.inr fun h => absurd (congrArg Option.isSome h) (by decide +kernel)
  exact absurd (hconf hreach).1 (by decide)

end OciJanus.Core.UploadHandlers
