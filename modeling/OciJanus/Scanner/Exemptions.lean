import OciJanus.Scanner.Worker

/-!
# What a finished scan blocks

`runJob` asks `hasPolicyViolation` about severity counts; the exempt CVEs are not read.
-/

namespace OciJanus.Scanner.Exemptions

open Scanner.Policy Scanner.Worker List

structure Finding where
  (cve severity : String)
  deriving DecidableEq

structure ScanResult where
  findings : List Finding
  severityCounts : String → Int

/-- What an adapter reports: its findings and, by `countBySeverity`, how many there are of each
severity. -/
def found (findings : List Finding) : ScanResult :=
  ⟨findings, fun sev => findings.countP (·.severity = sev)⟩

inductive Effect where
  | persistScanStatus (status : String)
  | scanCompleted (policyViolation : Bool)
  | policyBlocked
  | quarantine (reason : String)
  deriving DecidableEq

def severityRank : List (String × Nat) := [("LOW", 1), ("MEDIUM", 2), ("HIGH", 3), ("CRITICAL", 4)]

def hasPolicyViolation (result : ScanResult) (blockOn : String) : Bool :=
  match severityRank.lookup blockOn with
  | none => false
  | some threshold =>
    severityRank.any fun sr => threshold ≤ sr.2 && 0 < result.severityCounts sr.1

def buildQuarantineReason (result : ScanResult) (blockOn : String) : String :=
  let parts := (["CRITICAL", "HIGH", "MEDIUM", "LOW"].filter (0 < result.severityCounts ·)).map
    fun sev => toString (result.severityCounts sev) ++ " " ++ sev
  let counts := if parts = [] then "no findings" else ", ".intercalate parts
  "scan blocked by policy block_on_severity=" ++ (if blockOn = "" then "CRITICAL" else blockOn) ++
    ": " ++ counts

def runJob (job : ScanJob) : Option ScanResult → List Effect
  | none => [.persistScanStatus "failed"]
  | some result =>
    let blockOn := job.policy.blockOnSeverity
    let policyViolation := hasPolicyViolation result blockOn
    [.persistScanStatus "complete", .scanCompleted policyViolation] ++
      if policyViolation then [.policyBlocked, .quarantine (buildQuarantineReason result blockOn)]
      else []

def Blocks (blockOn : String) (f : Finding) : Prop :=
  ∃ threshold ∈ severityRank.lookup blockOn, ∃ rank ∈ severityRank.lookup f.severity,
    threshold ≤ rank
  deriving Decidable

theorem lookup_severityRank {sev : String} {rank : Nat} :
    severityRank.lookup sev = some rank ↔ (sev, rank) ∈ severityRank := by
  simp only [severityRank, lookup_cons, lookup_nil, mem_cons, Prod.mk.injEq,
    not_mem_nil]
  split <;> simp_all
  all_goals grind

theorem hasPolicyViolation_iff {findings : List Finding} {blockOn : String} :
    hasPolicyViolation (found findings) blockOn = true ↔ ∃ f ∈ findings, Blocks blockOn f := by
  unfold hasPolicyViolation Blocks
  cases severityRank.lookup blockOn with
  | none => simp
  | some threshold =>
    simp only [any_eq_true, Bool.and_eq_true, decide_eq_true_eq, found, Int.natCast_pos,
      countP_pos_iff, Option.mem_def, Option.some.injEq, exists_eq_left', lookup_severityRank]
    constructor
    · rintro ⟨⟨sev, rank⟩, hsr, hle, f, hf, rfl⟩
      exact ⟨f, hf, rank, hsr, hle⟩
    · rintro ⟨f, hf, rank, hsr, hle⟩
      exact ⟨(f.severity, rank), hsr, hle, f, hf, rfl⟩

/-- **Exempt CVEs do not block and nothing else is exempt**, if and only if a scan in which some
finding would block has one that would and is not exempt. -/
theorem push_scan_blocks_iff (resolver : Option PolicyResolver) (tenantID scanID : String)
    (payload : PushCompletedPayload) (job : ScanJob) (findings : List Finding)
    (hjob : handlePushCompleted resolver tenantID (some payload) scanID = .submit job) :
    let policy := appliedPolicy resolver tenantID payload.repoID
    let blocked := ∃ f ∈ findings, f.cve ∉ policy.exemptCVEs ∧ Blocks policy.blockOnSeverity f
    (((∃ reason, .quarantine reason ∈ runJob job (some (found findings))) ↔ blocked) ∧
      (.policyBlocked ∈ runJob job (some (found findings)) ↔ blocked) ∧
      (.scanCompleted true ∈ runJob job (some (found findings)) ↔ blocked)) ↔
      ((∃ f ∈ findings, Blocks policy.blockOnSeverity f) → blocked) := by
  intro policy blocked
  have hpolicy : job.policy = policy := by
    unfold handlePushCompleted at hjob
    dsimp only at hjob
    split_ifs at hjob
    cases hjob
    rfl
  have hsome : blocked → ∃ f ∈ findings, Blocks policy.blockOnSeverity f :=
    fun ⟨f, hf, _, hblocks⟩ => ⟨f, hf, hblocks⟩
  rw [← hasPolicyViolation_iff, ← hpolicy] at hsome ⊢
  cases hviolation : hasPolicyViolation (found findings) job.policy.blockOnSeverity
  · simpa [runJob, hviolation] using hsome
  · simp [runJob, hviolation]

def blockHigh : PolicyResolver := fun _ _ => .ok ⟨true, "HIGH", ["CVE-1"]⟩

def pushed : PushCompletedPayload := ⟨"org/app", "r", "sha256:a", "u", "image"⟩

def scanJob : ScanJob := ⟨"t", "r", "org/app", "sha256:a", "u", "s", ⟨true, "HIGH", ["CVE-1"]⟩⟩

theorem critical_finding_blocks :
    ∃ reason, .quarantine reason ∈ runJob scanJob (some (found [⟨"CVE-2", "CRITICAL"⟩])) :=
  ((push_scan_blocks_iff (some blockHigh) "t" "s" pushed scanJob [⟨"CVE-2", "CRITICAL"⟩] rfl).mpr
    (by decide)).1.mpr ⟨⟨"CVE-2", "CRITICAL"⟩, by decide, by decide, by decide⟩

theorem exempt_finding_blocks :
    handlePushCompleted (some blockHigh) "t" (some pushed) "s" = .submit scanJob ∧
      .quarantine "scan blocked by policy block_on_severity=HIGH: 1 HIGH" ∈
        runJob scanJob (some (found [⟨"CVE-1", "HIGH"⟩])) ∧
      ∀ f ∈ (found [⟨"CVE-1", "HIGH"⟩]).findings, f.cve ∈ scanJob.policy.exemptCVEs := by
  decide +kernel

end OciJanus.Scanner.Exemptions
