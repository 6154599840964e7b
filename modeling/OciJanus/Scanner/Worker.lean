import OciJanus.Scanner.Policy
import OciJanus.Signer.Signatures

/-!
# The worker pool of registry-scanner

A record of the job is written first and then the job is offered to a bounded channel, which may
refuse it.
-/

namespace OciJanus.Scanner.Worker

open Verified.KeyedTable Scanner.Policy
open Signer.Signatures (CachePopulatedPayload)

inductive Status where
  | pending
  | running
  | complete
  | failed
  deriving DecidableEq

structure ScanRecord where
  (scanID tenantID manifestDigest repositoryName : String)
  status : Status
  completedAt : Option Int

abbrev ScanStore := Table ScanRecord String (·.scanID)

namespace ScanStore

def create (s : ScanStore) (id tenantID manifestDigest repoName : String) : ScanStore :=
  (s.remove fun r => r.scanID = id).insertNew
    ⟨id, tenantID, manifestDigest, repoName, .pending, none⟩

def markRunning (r : ScanRecord) : ScanRecord := { r with status := .running }

def markFinished (status : Status) (now : Int) (r : ScanRecord) : ScanRecord :=
  { r with status := status, completedAt := some now }

def setRunning (s : ScanStore) (id : String) : ScanStore :=
  s.modify id markRunning fun _ => rfl

def setFinished (s : ScanStore) (id : String) (status : Status) (now : Int) : ScanStore :=
  s.modify id (markFinished status now) fun _ => rfl

end ScanStore

def ScanRecord.recent (r : ScanRecord) (now recentWindow : Int) : Bool :=
  r.status = .pending ∨ r.status = .running ∨
    0 < recentWindow ∧ r.completedAt.any fun t => now - recentWindow < t

def hasRecentScan (s : ScanStore) (now : Int) (tenantID manifestDigest : String)
    (recentWindow : Int) : Bool :=
  s.rows.any fun r =>
    r.tenantID = tenantID ∧ r.manifestDigest = manifestDigest ∧ r.recent now recentWindow

def ScanRecord.swept (r : ScanRecord) (now maxAge : Int) : Bool :=
  (r.status = .complete ∨ r.status = .failed) ∧ r.completedAt.any fun t => t < now - maxAge

def sweep (s : ScanStore) (now maxAge : Int) : ScanStore := s.remove fun r => r.swept now maxAge

structure ProxyCacheScanPolicy where
  tenantID : UUID
  upstreamName : String
  autoScan : Bool
  severityThreshold : String
  deriving DecidableEq

def ProxyCacheScanPolicy.key (p : ProxyCacheScanPolicy) : UUID × String :=
  (p.tenantID, p.upstreamName)

abbrev ProxyCacheScanPolicies :=
  Table ProxyCacheScanPolicy (UUID × String) ProxyCacheScanPolicy.key

structure ProxyCachePolicy where
  autoScan : Bool
  severityThreshold : String

inductive HandlerError where
  | unmarshal
  | policy
  | queueFull
  deriving DecidableEq

abbrev ProxyCachePolicyResolver :=
  String → String → Except HandlerError (Option ProxyCachePolicy)

def workerThreshold : String → String
  | "low" => "LOW"
  | "medium" => "MEDIUM"
  | "high" => "HIGH"
  | "critical" => "CRITICAL"
  | _ => ""

def proxyCachePolicyResolver (parse : String → Option UUID) (reachable : Bool)
    (policies : ProxyCacheScanPolicies) : ProxyCachePolicyResolver :=
  fun tenantIDStr upstreamName =>
    match parse tenantIDStr with
    | none => .error .policy
    | some tenantID =>
      if reachable = false then .error .policy
      else
        .ok ((policies.get (tenantID, upstreamName)).map fun rec =>
          ⟨rec.autoScan, workerThreshold rec.severityThreshold⟩)

structure ScanJob where
  (tenantID repoID repositoryName manifestDigest pushedBy scanID : String)
  policy : ResolvedScanPolicy
  deriving DecidableEq

inductive Decision where
  | done
  | fail (e : HandlerError)
  | submit (job : ScanJob)
  deriving DecidableEq

structure PushCompletedPayload where
  (repositoryName repoID manifestDigest pushedBy artifactType : String)

def handlePushCompleted (resolver : Option PolicyResolver) (tenantID : String)
    (payload : Option PushCompletedPayload) (scanID : String) : Decision :=
  match payload with
  | none => .fail .unmarshal
  | some p =>
    if p.artifactType ≠ "" ∧ p.artifactType ≠ "image" then .done
    else if (appliedPolicy resolver tenantID p.repoID).autoScanOnPush = false then .done
    else
      .submit ⟨tenantID, p.repoID, p.repositoryName, p.manifestDigest, p.pushedBy, scanID,
        appliedPolicy resolver tenantID p.repoID⟩

structure ScanQueuedPayload where
  (repositoryName repoID manifestDigest : String)

def handleScanQueued (resolver : Option PolicyResolver) (tenantID : String)
    (payload : Option ScanQueuedPayload) (scanID : String) : Decision :=
  match payload with
  | none => .fail .unmarshal
  | some p =>
    .submit ⟨tenantID, p.repoID, p.repositoryName, p.manifestDigest, "", scanID,
      appliedPolicy resolver tenantID p.repoID⟩

def triggerScanJob (tenantID repoID repoName manifestDigest scanID : String) : Decision :=
  .submit ⟨tenantID, repoID, repoName, manifestDigest, "", scanID, ⟨false, "", []⟩⟩

def cachePopulatedDedupWindow : Int := 30 * 60 * 1000000000

def handleCachePopulated (resolver : Option ProxyCachePolicyResolver) (store : ScanStore)
    (now : Int) (payload : Option CachePopulatedPayload) (scanID : String) : Decision :=
  match payload with
  | none => .fail .unmarshal
  | some p =>
    if p.tenantID = "" ∨ p.manifestDigest = "" ∨ p.upstreamName = "" then .done
    else
      match resolver with
      | none => .done
      | some resolve =>
        match resolve p.tenantID p.upstreamName with
        | .error e => .fail e
        | .ok none => .done
        | .ok (some policy) =>
          if policy.autoScan = false then .done
          else if hasRecentScan store now p.tenantID p.manifestDigest
              cachePopulatedDedupWindow then .done
          else
            .submit ⟨p.tenantID, "", p.image, p.manifestDigest, "", scanID,
              ⟨true, policy.severityThreshold, []⟩⟩

structure Config where
  workerCount : Nat
  parse : String → Option UUID

/-- `offered` jobs wait to be taken by the channel, whose ids are then `accepted`. -/
structure Pool where
  store : ScanStore
  (offered jobs running : List ScanJob)
  policies : ProxyCacheScanPolicies
  now : Int
  (issued accepted : List String)

inductive Action where
  | tick (elapsed : Nat)
  | cachePopulated (reachable : Bool) (payload : Option CachePopulatedPayload) (scanID : String)
  | pushCompleted (resolver : Option PolicyResolver) (tenantID : String)
      (payload : Option PushCompletedPayload) (scanID : String)
  | scanQueued (resolver : Option PolicyResolver) (tenantID : String)
      (payload : Option ScanQueuedPayload) (scanID : String)
  | triggerScan (tenantID repoID repoName manifestDigest scanID : String)
  | enqueue (scanID : String)
  | take
  | finish (scanID : String) (ok : Bool)
  | sweep
  | setProxyCacheScanPolicy (p : ProxyCacheScanPolicy)

namespace Pool

variable (cfg : Config) (s : Pool)

def fresh (policies : ProxyCacheScanPolicies) (now : Int) : Pool where
  store := Table.empty
  offered := []
  jobs := []
  running := []
  policies := policies
  now := now
  issued := []
  accepted := []

def submit (job : ScanJob) : Pool :=
  if job.scanID ∈ s.issued then s
  else
    { s with
      store := ScanStore.create s.store job.scanID job.tenantID job.manifestDigest
        job.repositoryName
      offered := s.offered ++ [job]
      issued := job.scanID :: s.issued }

def follow : Decision → Pool
  | .submit job => s.submit job
  | _ => s

def hasRoom : Bool := s.jobs.length < cfg.workerCount * 2

def offer? (scanID : String) : Option ScanJob := s.offered.find? fun j => j.scanID = scanID

def withdraw (scanID : String) : List ScanJob := s.offered.filter fun j => j.scanID ≠ scanID

def enqueue (scanID : String) : Pool :=
  match s.offer? scanID with
  | none => s
  | some job =>
    if s.hasRoom cfg then
      { s with
        offered := s.withdraw scanID
        jobs := s.jobs ++ [job]
        accepted := scanID :: s.accepted }
    else { s with offered := s.withdraw scanID }

def take : Pool :=
  match s.jobs with
  | [] => s
  | job :: rest =>
    if s.running.length < cfg.workerCount then
      { s with
        jobs := rest
        running := job :: s.running
        store := ScanStore.setRunning s.store job.scanID }
    else s

def finish (scanID : String) (ok : Bool) : Pool :=
  if scanID ∈ s.running.map (·.scanID) then
    { s with
      running := s.running.filter fun j => j.scanID ≠ scanID
      store := ScanStore.setFinished s.store scanID (if ok then .complete else .failed) s.now }
  else s

def sweepMaxAge : Int := 24 * 60 * 60 * 1000000000

def onCachePopulated (reachable : Bool) (payload : Option CachePopulatedPayload)
    (scanID : String) : Decision :=
  handleCachePopulated (some (proxyCachePolicyResolver cfg.parse reachable s.policies)) s.store
    s.now payload scanID

def step : Action → Pool
  | .tick elapsed => { s with now := s.now + elapsed }
  | .cachePopulated reachable payload scanID =>
    s.follow (s.onCachePopulated cfg reachable payload scanID)
  | .pushCompleted resolver tenantID payload scanID =>
    s.follow (handlePushCompleted resolver tenantID payload scanID)
  | .scanQueued resolver tenantID payload scanID =>
    s.follow (handleScanQueued resolver tenantID payload scanID)
  | .triggerScan tenantID repoID repoName manifestDigest scanID =>
    s.follow (triggerScanJob tenantID repoID repoName manifestDigest scanID)
  | .enqueue scanID => s.enqueue cfg scanID
  | .take => s.take cfg
  | .finish scanID ok => s.finish scanID ok
  | .sweep => { s with store := Worker.sweep s.store s.now sweepMaxAge }
  | .setProxyCacheScanPolicy p =>
    { s with policies := (s.policies.remove fun q => q.key = p.key).insertNew p }

end Pool

end OciJanus.Scanner.Worker
