import OciJanus.Core.SignatureAdmission
import OciJanus.Scanner.Worker

/-!
# The CVSS gate and the history of scans

The gate follows the row created last, a failed scan's too. `LatestFirst` is any way to choose
among rows of one instant.
-/

namespace OciJanus.Core.CvssAdmission

open Verified.KeyedTable Verified.Run Metadata Core.SignatureAdmission List
open Core.UploadHandlers (matchesDigestRE)
open Scanner.Worker (ScanJob)

inductive ScanStatus where
  | pending
  | running
  | complete
  | failed
  deriving DecidableEq

def ScanStatus.ofString? : String → Option ScanStatus
  | "pending" => some .pending
  | "running" => some .running
  | "complete" => some .complete
  | "failed" => some .failed
  | _ => none

structure ScanResult where
  (id manifestDigest repoID tenantID scannerName scannerVersion : String)
  status : ScanStatus
  severityCounts : SeverityCounts
  findings : String
  (startedAt completedAt : Option Int)
  createdAt : Int
  deriving DecidableEq

abbrev ScanResults := Table ScanResult String (·.id)

def noCounts : SeverityCounts := ⟨0, 0, 0, 0⟩

structure UpdateScanStatusRequest where
  (scanID tenantID status findingsJSON : String)
  severityCounts : SeverityCounts
  (repoID manifestDigest scannerName scannerVersion : String)

inductive ScanError where
  | notFound
  | internal

def startedAtOf (status : ScanStatus) (now : Int) : Option Int :=
  if status = .running then some now else none

def completedAtOf (status : ScanStatus) (now : Int) : Option Int :=
  if status = .complete ∨ status = .failed then some now else none

def UpdateScanStatusRequest.row (req : UpdateScanStatusRequest) (status : ScanStatus)
    (now dbNow : Int) : ScanResult :=
  ⟨req.scanID, req.manifestDigest, req.repoID, req.tenantID, req.scannerName,
    req.scannerVersion, status, req.severityCounts, req.findingsJSON, startedAtOf status now,
    completedAtOf status now, dbNow⟩

def UpdateScanStatusRequest.rewrite (req : UpdateScanStatusRequest) (status : ScanStatus)
    (now : Int) (old : ScanResult) : ScanResult :=
  { old with
    status := status
    findings := req.findingsJSON
    severityCounts := req.severityCounts
    startedAt := old.startedAt <|> startedAtOf status now
    completedAt := completedAtOf status now
    scannerName := if req.scannerName ≠ "" then req.scannerName else old.scannerName
    scannerVersion := if req.scannerVersion ≠ "" then req.scannerVersion else old.scannerVersion }

def upsertScanResult (s : ScanResults) (now dbNow : Int) (req : UpdateScanStatusRequest) :
    Except ScanError ScanResults :=
  match ScanStatus.ofString? req.status with
  | none => .error .internal
  | some status =>
    if (s.get req.scanID).any fun old => old.tenantID ≠ req.tenantID then .error .notFound
    else
      .ok (s.upsert (req.row status now dbNow) (req.rewrite status now) fun _ => rfl)

def createPendingScanResult (s : ScanResults) (dbNow : Int)
    (id tenantID repoID manifestDigest scannerName scannerVersion : String) :
    Except ScanError ScanResults :=
  match s.insert? ⟨id, manifestDigest, repoID, tenantID, scannerName, scannerVersion, .pending,
      noCounts, "[]", none, none, dbNow⟩ with
  | none => .error .internal
  | some s' => .ok s'

inductive ScanWrite where
  | updateScanStatus (now dbNow : Int) (req : UpdateScanStatusRequest)
  | createPending (dbNow : Int)
      (id tenantID repoID manifestDigest scannerName scannerVersion : String)

def orSame (s : ScanResults) : Except ScanError ScanResults → ScanResults
  | .ok s' => s'
  | .error _ => s

def writeScan (s : ScanResults) : ScanWrite → ScanResults
  | .updateScanStatus now dbNow req => orSame s (upsertScanResult s now dbNow req)
  | .createPending dbNow id tenantID repoID manifestDigest scannerName scannerVersion =>
    orSame s (createPendingScanResult s dbNow id tenantID repoID manifestDigest scannerName
      scannerVersion)

structure PluginResult where
  (scannerName scannerVersion : String)
  severityCounts : SeverityCounts
  findingsJSON : String

def int32 (v : Int) : Int := v.bmod 4294967296

def countsProto (c : SeverityCounts) : SeverityCounts :=
  ⟨int32 c.critical, int32 c.high, int32 c.medium, int32 c.low⟩

def orUnknown (name : String) : String := if name ≠ "" then name else "unknown"

def persistScanStatus (job : ScanJob) (status : String) (counts : Option SeverityCounts)
    (findingsJSON : Option String) (result : Option PluginResult) : UpdateScanStatusRequest where
  scanID := job.scanID
  tenantID := job.tenantID
  status := status
  findingsJSON := findingsJSON.getD "[]"
  severityCounts := (counts.map countsProto).getD noCounts
  repoID := job.repoID
  manifestDigest := job.manifestDigest
  scannerName := (result.map fun r => orUnknown r.scannerName).getD "unknown"
  scannerVersion := (result.map fun r => orUnknown r.scannerVersion).getD "unknown"

def runJob (job : ScanJob) : Option PluginResult → UpdateScanStatusRequest
  | none => persistScanStatus job "failed" none none none
  | some result =>
    persistScanStatus job "complete" (some result.severityCounts) (some result.findingsJSON)
      (some result)

def scansOf (s : ScanResults) (tenantID manifestDigest : String) : List ScanResult :=
  s.rows.filter fun r => r.manifestDigest = manifestDigest ∧ r.tenantID = tenantID

structure LatestFirst where
  pick : List ScanResult → Option ScanResult
  pick_none : ∀ l, pick l = none → l = []
  pick_mem : ∀ l r, pick l = some r → r ∈ l
  pick_latest : ∀ l r, pick l = some r → ∀ r' ∈ l, r'.createdAt ≤ r.createdAt

def getScanResult (lf : LatestFirst) (s : ScanResults) (tenantID manifestDigest : String) :
    Option ScanResult :=
  lf.pick (scansOf s tenantID manifestDigest)

def Newest (s : ScanResults) (tenantID manifestDigest : String) (r : ScanResult) : Prop :=
  r ∈ scansOf s tenantID manifestDigest ∧
    ∀ r' ∈ scansOf s tenantID manifestDigest, r'.createdAt ≤ r.createdAt

def MostRecentCompleted (s : ScanResults) (tenantID manifestDigest : String) (r : ScanResult) :
    Prop :=
  r ∈ scansOf s tenantID manifestDigest ∧ r.status = .complete ∧
    ∃ c, r.completedAt = some c ∧ ∀ r' ∈ scansOf s tenantID manifestDigest,
      r'.status = .complete → ∀ c' ∈ r'.completedAt, c' ≤ c

def later (r n : ScanResult) : ScanResult := if n.createdAt ≤ r.createdAt then r else n

def latest : List ScanResult → Option ScanResult
  | [] => none
  | r :: l => some (((latest l).map (later r)).getD r)

theorem latest_spec {l : List ScanResult} {r : ScanResult} (h : latest l = some r) :
    r ∈ l ∧ ∀ r' ∈ l, r'.createdAt ≤ r.createdAt := by
  induction l generalizing r with
  | nil => cases h
  | cons a l ih =>
    cases hn : latest l with
    | none =>
      have hnil : l = [] := by
        cases l with
        | nil => rfl
        | cons b l => cases hn
      rw [latest, hn] at h
      cases h
      rw [hnil]
      simp
    | some n =>
      obtain ⟨hmem, hlast⟩ := ih hn
      rw [latest, hn] at h
      have hr : later a n = r := Option.some.inj h
      unfold later at hr
      split_ifs at hr with hle
      · rw [← hr]
        refine ⟨mem_cons_self, fun r' hr' => ?_⟩
        rcases mem_cons.mp hr' with heq | hr'
        · rw [heq]
        · exact (hlast r' hr').trans hle
      · rw [← hr]
        refine ⟨mem_cons_of_mem a hmem, fun r' hr' => ?_⟩
        rcases mem_cons.mp hr' with heq | hr'
        · rw [heq]
          omega
        · exact hlast r' hr'

def firstLatest : LatestFirst where
  pick := latest
  pick_none l h := by
    cases l with
    | nil => rfl
    | cons a l => cases h
  pick_mem _ _ h := (latest_spec h).1
  pick_latest _ _ h := (latest_spec h).2

def preferring (n : ScanResult) : LatestFirst where
  pick l :=
    if n ∈ l ∧ ∀ r ∈ l, r.createdAt ≤ n.createdAt then some n else firstLatest.pick l
  pick_none l h := by
    split_ifs at h
    exact firstLatest.pick_none l h
  pick_mem l r h := by
    split_ifs at h with hn
    · cases h
      exact hn.1
    · exact firstLatest.pick_mem l r h
  pick_latest l r h := by
    split_ifs at h with hn
    · cases h
      exact hn.2
    · exact firstLatest.pick_latest l r h

section Newest

variable {s : ScanResults} {tenantID manifestDigest : String} {r : ScanResult}

theorem newest_of_getScanResult {lf : LatestFirst}
    (h : getScanResult lf s tenantID manifestDigest = some r) :
    Newest s tenantID manifestDigest r :=
  ⟨lf.pick_mem _ r h, lf.pick_latest _ r h⟩

theorem getScanResult_preferring (h : Newest s tenantID manifestDigest r) :
    getScanResult (preferring r) s tenantID manifestDigest = some r :=
  if_pos h

theorem getScanResult_isSome (lf : LatestFirst) (h : r ∈ scansOf s tenantID manifestDigest) :
    ∃ n, getScanResult lf s tenantID manifestDigest = some n := by
  cases hn : getScanResult lf s tenantID manifestDigest with
  | some n => exact ⟨n, rfl⟩
  | none =>
    have hnil : scansOf s tenantID manifestDigest = [] := lf.pick_none _ hn
    rw [hnil] at h
    exact absurd h not_mem_nil

end Newest

def resolveManifest (store : Store) (tenantID repoID reference : String) : Option Manifest :=
  (if matchesDigestRE reference then some reference
    else (store.getTag tenantID repoID reference).map (·.manifestDigest)).bind
      (store.manifestRow tenantID repoID)

def scanScores (lf : LatestFirst) (s : ScanResults) (tenantID manifestDigest : String) :
    Option SeverityCounts :=
  (getScanResult lf s tenantID manifestDigest).map (·.severityCounts)

theorem getManifest_of_resolveManifest {ι : Type*} {w : World ι} {store : Store}
    {scan : String → Option SeverityCounts} {i : ι} {tenantID repoID reference : String}
    {m : Manifest} (h : resolveManifest store tenantID repoID reference = some m) :
    w.getManifest store scan i tenantID repoID reference = (do
      checkSignatureAdmission (getRepository w.settings tenantID repoID)
        (w.signatures i ⟨tenantID, m.digest⟩)
        (some (listRepositoryTrustedKeys w.trusted tenantID repoID))
      checkCVSSAdmission (getRepository w.settings tenantID repoID) (scan m.digest)
      return m) := by
  obtain ⟨d, hd, hm⟩ := Option.bind_eq_some_iff.mp h
  unfold World.getManifest
  simp only [hd, hm]

theorem checkCVSSAdmission_error_iff {r : RepositorySettings} {threshold : Int}
    {counts : SeverityCounts} (hmax : r.maxCvssScore = some threshold) :
    (∃ top, checkCVSSAdmission (some r) (some counts) =
        .error (.cvssThresholdExceeded top threshold)) ↔
      threshold < topCVSSFromSeverity counts := by
  unfold checkCVSSAdmission
  simp only [hmax]
  by_cases hgt : topCVSSFromSeverity counts > threshold
  · simp only [if_pos hgt]
    exact ⟨fun _ => hgt, fun _ => ⟨_, rfl⟩⟩
  · simp only [if_neg hgt]
    constructor
    · intro h
      obtain ⟨_, h⟩ := h
      cases h
    · intro h
      exact absurd h hgt

theorem checkSignatureAdmission_error {repo : Option RepositorySettings}
    {signatures : Option (List Signer.Signatures.Signature)} {trusted : Option (List String)}
    {e : PullError} (h : checkSignatureAdmission repo signatures trusted = .error e) :
    e = .signatureRequired := by
  unfold checkSignatureAdmission at h
  repeat' split at h
  all_goals cases h
  all_goals rfl

theorem getManifest_cvss_iff {ι : Type*} {w : World ι} {store : Store}
    {scan : String → Option SeverityCounts} {i : ι} {tenantID repoID reference : String}
    {m : Manifest} {r : RepositorySettings} {threshold : Int} {counts : SeverityCounts}
    (hm : resolveManifest store tenantID repoID reference = some m)
    (hrepo : getRepository w.settings tenantID repoID = some r)
    (hmax : r.maxCvssScore = some threshold) (hscan : scan m.digest = some counts) :
    (∃ top, w.getManifest store scan i tenantID repoID reference =
        .error (.cvssThresholdExceeded top threshold)) ↔
      checkSignatureAdmission (some r) (w.signatures i ⟨tenantID, m.digest⟩)
          (some (listRepositoryTrustedKeys w.trusted tenantID repoID)) = .ok () ∧
        threshold < topCVSSFromSeverity counts := by
  rw [getManifest_of_resolveManifest hm, hrepo, hscan, ← checkCVSSAdmission_error_iff hmax]
  cases hsig : checkSignatureAdmission (some r) (w.signatures i ⟨tenantID, m.digest⟩)
    (some (listRepositoryTrustedKeys w.trusted tenantID repoID)) with
  | error e =>
    rw [checkSignatureAdmission_error hsig]
    constructor
    · intro h
      obtain ⟨top, h⟩ := h
      cases h
    · intro h
      cases h.1
  | ok u =>
    cases hcvss : checkCVSSAdmission (some r) (some counts) with
    | error e =>
      constructor
      · intro h
        obtain ⟨top, h⟩ := h
        cases h
        exact ⟨rfl, top, rfl⟩
      · intro h
        obtain ⟨_, top, h⟩ := h
        cases h
        exact ⟨top, rfl⟩
    | ok u' =>
      constructor
      · intro h
        obtain ⟨top, h⟩ := h
        cases h
      · intro h
        obtain ⟨_, top, h⟩ := h
        cases h

/-- **When the gate stays shut.** -/
theorem gate_shut_iff {ι : Type*} (w : World ι) (store : Store) (i : ι)
    (tenantID repoID reference : String) (writes : List ScanWrite) (m : Manifest)
    (r : RepositorySettings) (threshold : Int) (recent : ScanResult)
    (hm : resolveManifest store tenantID repoID reference = some m)
    (hrepo : getRepository w.settings tenantID repoID = some r)
    (hmax : r.maxCvssScore = some threshold)
    (hrecent : MostRecentCompleted (run writeScan Table.empty writes) tenantID m.digest recent)
    (htop : threshold < topCVSSFromSeverity recent.severityCounts) :
    (∀ lf : LatestFirst, ∃ top,
        w.getManifest store (scanScores lf (run writeScan Table.empty writes) tenantID) i
          tenantID repoID reference = .error (.cvssThresholdExceeded top threshold)) ↔
      checkSignatureAdmission (some r) (w.signatures i ⟨tenantID, m.digest⟩)
          (some (listRepositoryTrustedKeys w.trusted tenantID repoID)) = .ok () ∧
        ∀ n, Newest (run writeScan Table.empty writes) tenantID m.digest n →
          n = recent ∨ threshold < topCVSSFromSeverity n.severityCounts := by
  have hread : ∀ (lf : LatestFirst) (n : ScanResult),
      getScanResult lf (run writeScan Table.empty writes) tenantID m.digest = some n →
      ((∃ top, w.getManifest store (scanScores lf (run writeScan Table.empty writes) tenantID) i
          tenantID repoID reference = .error (.cvssThresholdExceeded top threshold)) ↔ _) :=
    fun lf n hn => getManifest_cvss_iff hm hrepo hmax
      (show scanScores lf _ tenantID m.digest = some n.severityCounts by simp [scanScores, hn])
  constructor
  · intro hshut
    obtain ⟨n₀, hn₀⟩ := getScanResult_isSome firstLatest hrecent.1
    refine ⟨((hread firstLatest n₀ hn₀).mp (hshut firstLatest)).1, ?_⟩
    intro n hn
    exact Or.inr ((hread _ n (getScanResult_preferring hn)).mp (hshut (preferring n))).2
  · intro h lf
    obtain ⟨n, hn⟩ := getScanResult_isSome lf hrecent.1
    refine (hread lf n hn).mpr ⟨h.1, ?_⟩
    rcases h.2 n (newest_of_getScanResult hn) with rfl | habove
    · exact htop
    · exact habove

def gatedSettings : RepositorySettings := ⟨"r", "acme", false, some 69⟩

def gatedWorld : World Unit := World.fresh Table.empty (.single gatedSettings)

def scanJob (scanID : String) : ScanJob :=
  ⟨"acme", "r", "app", sampleDigest, "ann", scanID, ⟨true, "", []⟩⟩

def criticalScan : ScanWrite :=
  .updateScanStatus 1000 1000 (runJob (scanJob "s1") (some ⟨"trivy", "0.50", ⟨1, 0, 0, 0⟩, "[{}]"⟩))

def failedRescan : ScanWrite := .updateScanStatus 2000 2000 (runJob (scanJob "s2") none)

def criticalRow : ScanResult :=
  ⟨"s1", sampleDigest, "r", "acme", "trivy", "0.50", .complete, ⟨1, 0, 0, 0⟩, "[{}]", none,
    some 1000, 1000⟩

def scansAfter (writes : List ScanWrite) : ScanResults := run writeScan Table.empty writes

theorem mostRecentCompleted_critical (writes : List ScanWrite)
    (h : scansOf (scansAfter writes) "acme" sampleDigest =
      [criticalRow] ++ (scansOf (scansAfter writes) "acme" sampleDigest).tail)
    (htail : ∀ r ∈ (scansOf (scansAfter writes) "acme" sampleDigest).tail, r.status ≠ .complete) :
    MostRecentCompleted (scansAfter writes) "acme" sampleDigest criticalRow := by
  refine ⟨by rw [h]; simp, rfl, 1000, rfl, ?_⟩
  intro r hr hst c hc
  rw [h] at hr
  rcases mem_append.mp hr with hr | hr
  · rw [mem_singleton.mp hr] at hc
    cases hc
    exact le_refl _
  · exact absurd hst (htail r hr)

theorem failed_rescan_opens_gate :
    MostRecentCompleted (scansAfter [criticalScan, failedRescan]) "acme" sampleDigest criticalRow ∧
    topCVSSFromSeverity criticalRow.severityCounts = 100 ∧
    (gatedWorld.getManifest sampleStore
      (scanScores firstLatest (scansAfter [criticalScan, failedRescan]) "acme") () "acme" "r"
      sampleDigest).map Manifest.digest = .ok sampleDigest := by
  refine ⟨mostRecentCompleted_critical _ ?_ ?_, rfl, ?_⟩
  · decide +kernel
  · decide +kernel
  · decide +kernel

theorem critical_scan_shuts_gate :
    MostRecentCompleted (scansAfter [criticalScan]) "acme" sampleDigest criticalRow ∧
    ∀ lf : LatestFirst, ∃ top,
      gatedWorld.getManifest sampleStore (scanScores lf (scansAfter [criticalScan]) "acme") ()
        "acme" "r" sampleDigest = .error (.cvssThresholdExceeded top 69) := by
  have hrecent : MostRecentCompleted (scansAfter [criticalScan]) "acme" sampleDigest
      criticalRow := by
    refine mostRecentCompleted_critical _ ?_ ?_
    · decide +kernel
    · decide +kernel
  have honly : scansOf (scansAfter [criticalScan]) "acme" sampleDigest = [criticalRow] := by
    decide +kernel
  refine ⟨hrecent, (gate_shut_iff gatedWorld sampleStore () "acme" "r" sampleDigest
    [criticalScan] ⟨0, "r", "acme", sampleDigest, mediaTypeOCIManifest, [123, 125], 0, 0, none,
    none⟩ gatedSettings 69 criticalRow (by decide +kernel) (by decide +kernel) rfl hrecent
    (by decide)).mpr ⟨by decide +kernel, ?_⟩⟩
  intro n hn
  have hmem : n ∈ scansOf (scansAfter [criticalScan]) "acme" sampleDigest := hn.1
  rw [honly] at hmem
  exact Or.inl (mem_singleton.mp hmem)

end OciJanus.Core.CvssAdmission
