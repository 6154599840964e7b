import OciJanus.Gc.Collector

/-!
# The mode of a queued sweep

The mode of a row of `gc_runs` reaches the log only; the collector has the mode it was configured
with.
-/

namespace OciJanus.Gc.QueuedSweep

open Core.Storage Gc.Collector Gc.Runs Metadata

inductive Code where
  | failedPrecondition
  | invalidArgument
  | internal
  deriving DecidableEq

structure RpcError where
  code : Code
  message : String
  deriving DecidableEq

def parseMode : String → Option SweepMode
  | "dry-run" => some .dryRun
  | "manifests" => some .manifests
  | "blobs" => some .blobs
  | "full" => some .full
  | _ => none

structure RunNowRequest where
  (mode triggeredBy : String)

structure Handler where
  (hasRepo hasRunRequests : Bool)
  isUUID : String → Bool
  createFails : Option String

def runNow (h : Handler) (runID : Nat) (now : Int) (req : RunNowRequest) : Except RpcError GCRun :=
  if !h.hasRepo then .error ⟨.failedPrecondition, "gc repository not configured"⟩
  else if !h.hasRunRequests then .error ⟨.failedPrecondition, "gc dispatcher not configured"⟩
  else
    match parseMode req.mode with
    | none => .error ⟨.invalidArgument, "mode must be one of dry-run|manifests|blobs|full"⟩
    | some mode =>
      if req.triggeredBy = "" then .error ⟨.invalidArgument, "triggered_by is required"⟩
      else if !h.isUUID req.triggeredBy then
        .error ⟨.invalidArgument, "triggered_by must be a UUID"⟩
      else
        match h.createFails with
        | some err => .error ⟨.internal, "create run: " ++ err⟩
        | none => .ok (newRun runID (.sweep mode) none none req.triggeredBy now)

variable {row : GCRun}

theorem runNow_ok {h : Handler} {runID : Nat} {now : Int} {req : RunNowRequest}
    (hok : runNow h runID now req = .ok row) :
    ∃ mode, parseMode req.mode = some mode ∧
      row = newRun runID (.sweep mode) none none req.triggeredBy now := by
  unfold runNow at hok
  cases hmode : parseMode req.mode with
  | none =>
    simp only [hmode] at hok
    split_ifs at hok
  | some mode =>
    cases hcreate : h.createFails with
    | some err =>
      simp only [hmode, hcreate] at hok
      split_ifs at hok
    | none =>
      simp only [hmode, hcreate] at hok
      split_ifs at hok
      cases hok
      exact ⟨mode, rfl, rfl⟩

structure Env where
  cutoff : Int
  faults : RunFaults
  tenants : List String
  recorded : Outcome
  (claimedAt now : Int)
  dispatchRetention : World → GCRun → World × GCRun

def executeAndFinalize (cfg : SweepMode) (env : Env) (w : World) (row : GCRun) : World × GCRun :=
  let finish (st : Statement) := if env.recorded = .failed then row else st.apply env.now row
  match Collector.run cfg env.cutoff env.faults w env.tenants with
  | (done, .error err) => (done.world, finish (.failRun err))
  | (done, .ok ()) =>
    (done.world, finish (.completeRun done.result.blobsDeleted done.result.manifestsDeleted
        done.result.bytesFreed))

def runClaimed (cfg : SweepMode) (env : Env) (w : World) (row : GCRun) : World × GCRun :=
  if row.mode.isRetention then env.dispatchRetention w row
  else executeAndFinalize cfg env w row

def dispatchQueued (cfg : SweepMode) (env : Env) (w : World) (row : GCRun) : World × GCRun :=
  runClaimed cfg env w (Statement.startRun.apply env.claimedAt row)

def counters (row : GCRun) : Int × Int × Int :=
  (row.manifestsDeleted, row.blobsFreed, row.bytesFreed)

def deletesManifests (mode : SweepMode) : Prop := mode = .manifests ∨ mode = .full

def deletesBlobs (mode : SweepMode) : Prop := mode = .blobs ∨ mode = .full

def Obeys (mode cfg : SweepMode) (row : GCRun) : Prop :=
  ∀ env w, (¬ deletesManifests mode → KeepsManifests w (dispatchQueued cfg env w row).1) ∧
    (¬ deletesBlobs mode → (dispatchQueued cfg env w row).1.objects = w.objects) ∧
    counters (dispatchQueued cfg env w row).2 = counters (dispatchQueued mode env w row).2

theorem dispatchQueued_world {cfg mode : SweepMode} (hrow : row.mode = .sweep mode)
    (env : Env) (w : World) :
    (dispatchQueued cfg env w row).1 =
      (Collector.run cfg env.cutoff env.faults w env.tenants).1.world := by
  have hsweep : (Statement.startRun.apply env.claimedAt row).mode.isRetention = false := by
    show row.mode.isRetention = false
    rw [hrow]
    rfl
  unfold dispatchQueued runClaimed executeAndFinalize
  rw [hsweep]
  cases hrun : Collector.run cfg env.cutoff env.faults w env.tenants with
  | mk done result => cases result <;> rfl

theorem obeys_self {mode : SweepMode} (hrow : row.mode = .sweep mode) : Obeys mode mode row := by
  intro env w
  rw [dispatchQueued_world hrow]
  refine ⟨fun hkeeps => ?_, fun hkeeps => ?_, rfl⟩
  · apply run_manifests
    cases mode <;> simp [deletesManifests] at hkeeps ⊢
  · apply run_objects
    cases mode <;> simp [deletesBlobs] at hkeeps ⊢

def leftovers : World where
  store :=
    (Store.fresh ⟨[], List.nodup_nil⟩ (.single ⟨"r", "o", "t1", "app", false, 10, 0⟩)).apply
      indexDocuments (.putManifest 0 "t1" "r" "sha256:m" mediaTypeOCIManifest [1])
  blobs := .single ⟨"sha256:b", 5, "blobs/t1/sha256/b"⟩
  blobLinks := []
  objects := fun key => if key = "blobs/t1/sha256/b" then some [1] else none

def Env.quiet : Env where
  cutoff := 10
  faults := .none
  tenants := ["t1", "t2"]
  recorded := .done
  claimedAt := 11
  now := 12
  dispatchRetention := fun w row => (w, row)

theorem counters_leftovers (cfg mode : SweepMode) (runID : Nat) (triggeredBy : String) (now : Int) :
    counters (dispatchQueued cfg .quiet leftovers
        (newRun runID (.sweep mode) none none triggeredBy now)).2 =
      match cfg with
      | .dryRun => (1, 2, 10)
      | .manifests => (1, 0, 0)
      | .blobs => (0, 1, 5)
      | .full => (1, 1, 5) := by
  cases cfg <;> rfl

/-- **When a queued sweep does what its row says.** -/
theorem queued_sweep_obeys_iff (cfg : SweepMode) {h : Handler} {runID : Nat} {now : Int}
    {req : RunNowRequest} {row : GCRun} (hok : runNow h runID now req = .ok row) :
    ∃ mode, parseMode req.mode = some mode ∧ row.mode = .sweep mode ∧
      (Obeys mode cfg row ↔ cfg = mode) := by
  obtain ⟨mode, hmode, rfl⟩ := runNow_ok hok
  refine ⟨mode, hmode, rfl, ?_, ?_⟩
  · intro hobeys
    have hcounters := (hobeys .quiet leftovers).2.2
    rw [counters_leftovers, counters_leftovers] at hcounters
    cases cfg <;> cases mode <;> first | rfl | cases hcounters
  · rintro rfl
    exact obeys_self rfl

def Handler.ready : Handler := ⟨true, true, fun id => id = "u", none⟩

theorem full_sweep_obeyed : Obeys .full .full (newRun 0 (.sweep .full) none none "u" 0) := by
  have hok : runNow .ready 0 0 ⟨"full", "u"⟩ = .ok (newRun 0 (.sweep .full) none none "u" 0) := rfl
  obtain ⟨mode, hmode, _, hiff⟩ := queued_sweep_obeys_iff .full hok
  cases hmode
  exact hiff.mpr rfl

theorem dry_run_deletes :
    runNow .ready 0 0 ⟨"dry-run", "u"⟩ = .ok (newRun 0 (.sweep .dryRun) none none "u" 0) ∧
    leftovers.store.manifests.rows.length = 1 ∧
    (dispatchQueued .full .quiet leftovers
      (newRun 0 (.sweep .dryRun) none none "u" 0)).1.store.manifests.rows = [] ∧
    leftovers.objects "blobs/t1/sha256/b" = some [1] ∧
    (dispatchQueued .full .quiet leftovers
      (newRun 0 (.sweep .dryRun) none none "u" 0)).1.objects "blobs/t1/sha256/b" = none := by
  decide +kernel

end OciJanus.Gc.QueuedSweep
