import OciJanus.Verified.KeyedTable

/-!
# Scan policies

The server's closure passes `uuid.Nil` for the organization, for which `Resolve` borrows the one
that the repository's own row names.
-/

namespace OciJanus.Scanner.Policy

open Verified.KeyedTable

abbrev UUID := BitVec 128

def uuidNil : UUID := 0

structure ScanPolicy where
  (tenantID orgID repoID : UUID)
  autoScanOnPush : Bool
  blockOnSeverity : String
  exemptCVEs : List String
  (scannerPlugin scannerVersionPin : String)
  enabled : Bool
  deriving DecidableEq

inductive RepoError where
  | notFound
  | failed
  deriving DecidableEq

structure Repo where
  (getRepoScanPolicy getOrgScanPolicy : UUID → UUID → Except RepoError ScanPolicy)
  getScanPolicy : UUID → Except RepoError ScanPolicy

inductive Source where
  | repo
  | org
  | tenant
  | default
  deriving DecidableEq

structure Resolved where
  policy : ScanPolicy
  source : Source
  deriving DecidableEq

def synthesisedDefault (tenantID : UUID) : ScanPolicy :=
  ⟨tenantID, uuidNil, uuidNil, true, "", [], "trivy", "", true⟩

section Resolve

variable (r : Repo) (tenantID : UUID)

def resolveTenant : Except RepoError Resolved :=
  match r.getScanPolicy tenantID with
  | .ok rec => .ok ⟨rec, .tenant⟩
  | .error .notFound => .ok ⟨synthesisedDefault tenantID, .default⟩
  | .error .failed => .error .failed

def resolveOrg (orgID : UUID) : Except RepoError Resolved :=
  if orgID = uuidNil then resolveTenant r tenantID
  else
    match r.getOrgScanPolicy tenantID orgID with
    | .ok rec => if rec.enabled then .ok ⟨rec, .org⟩ else resolveTenant r tenantID
    | .error .notFound => resolveTenant r tenantID
    | .error .failed => .error .failed

def resolve (repoID orgID : UUID) : Except RepoError Resolved :=
  if repoID = uuidNil then resolveOrg r tenantID orgID
  else
    match r.getRepoScanPolicy tenantID repoID with
    | .ok rec =>
      if rec.enabled then .ok ⟨rec, .repo⟩
      else
        -- The disabled row lends its organization to a caller that gave none.
        resolveOrg r tenantID (if orgID = uuidNil then rec.orgID else orgID)
    | .error .notFound => resolveOrg r tenantID orgID
    | .error .failed => .error .failed

end Resolve

structure ResolvedScanPolicy where
  autoScanOnPush : Bool
  blockOnSeverity : String
  exemptCVEs : List String
  deriving DecidableEq

def ScanPolicy.forWorker (p : ScanPolicy) : ResolvedScanPolicy :=
  ⟨p.autoScanOnPush, p.blockOnSeverity, p.exemptCVEs⟩

inductive ResolverError where
  | invalidTenantID
  | invalidRepoID
  | resolve (e : RepoError)

abbrev PolicyResolver := String → String → Except ResolverError ResolvedScanPolicy

def policyResolver (parse : String → Option UUID) (r : Repo) : PolicyResolver :=
  fun tenantIDStr repoIDStr =>
    match parse tenantIDStr with
    | none => .error .invalidTenantID
    | some tenantID =>
      match if repoIDStr = "" then some uuidNil else parse repoIDStr with
      | none => .error .invalidRepoID
      | some repoID =>
        match resolve r tenantID repoID uuidNil with
        | .error e => .error (.resolve e)
        | .ok res => .ok res.policy.forWorker

def scanEverything : ResolvedScanPolicy := ⟨true, "", []⟩

def appliedPolicy (resolver : Option PolicyResolver) (tenantID repoID : String) :
    ResolvedScanPolicy :=
  match resolver with
  | none => scanEverything
  | some f =>
    match f tenantID repoID with
    | .ok got => got
    | .error _ => scanEverything

structure Policies where
  repos : Table ScanPolicy UUID (·.repoID)
  orgs : Table ScanPolicy UUID (·.orgID)
  tenants : Table ScanPolicy UUID (·.tenantID)

namespace Policies

variable (db : Policies) (tenantID : UUID)

def repoRow (repoID : UUID) : Option ScanPolicy :=
  (db.repos.get repoID).filter fun p => p.tenantID = tenantID

def orgRow (orgID : UUID) : Option ScanPolicy :=
  ((db.orgs.get orgID).filter fun p => p.tenantID = tenantID).map fun p =>
    { p with repoID := uuidNil }

def tenantRow : Option ScanPolicy :=
  (db.tenants.get tenantID).map fun p =>
    { p with orgID := uuidNil, repoID := uuidNil, enabled := false }

end Policies

def orNotFound : Option ScanPolicy → Except RepoError ScanPolicy
  | some p => .ok p
  | none => .error .notFound

def Policies.repo (db : Policies) : Repo where
  getRepoScanPolicy tenantID repoID := orNotFound (db.repoRow tenantID repoID)
  getOrgScanPolicy tenantID orgID := orNotFound (db.orgRow tenantID orgID)
  getScanPolicy tenantID := orNotFound (db.tenantRow tenantID)

namespace Policies

variable (db : Policies) (tenantID repoID orgID : UUID)

def tenantPolicy : ScanPolicy := (db.tenantRow tenantID).getD (synthesisedDefault tenantID)

def orgPolicy : ScanPolicy :=
  if orgID = uuidNil then db.tenantPolicy tenantID
  else ((db.orgRow tenantID orgID).filter (·.enabled)).getD (db.tenantPolicy tenantID)

def chain : ScanPolicy :=
  ((db.repoRow tenantID repoID).filter (·.enabled)).getD (db.orgPolicy tenantID orgID)

def namedOrg : UUID := ((db.repoRow tenantID repoID).map (·.orgID)).getD uuidNil

theorem resolveTenant_repo :
    ∃ source, resolveTenant db.repo tenantID = .ok ⟨db.tenantPolicy tenantID, source⟩ := by
  cases hrow : db.tenantRow tenantID with
  | none => exact ⟨.default, by simp [resolveTenant, tenantPolicy, repo, orNotFound, hrow]⟩
  | some p => exact ⟨.tenant, by simp [resolveTenant, tenantPolicy, repo, orNotFound, hrow]⟩

theorem resolveOrg_repo :
    ∃ source, resolveOrg db.repo tenantID orgID = .ok ⟨db.orgPolicy tenantID orgID, source⟩ := by
  obtain ⟨below, hbelow⟩ := resolveTenant_repo db tenantID
  unfold resolveOrg orgPolicy
  by_cases horg : orgID = uuidNil
  · rw [if_pos horg, if_pos horg]
    exact ⟨below, hbelow⟩
  · rw [if_neg horg, if_neg horg]
    cases hrow : db.orgRow tenantID orgID with
    | none => exact ⟨below, by simpa [repo, orNotFound, hrow] using hbelow⟩
    | some p =>
      by_cases hp : p.enabled = true
      · exact ⟨.org, by simp [repo, orNotFound, hrow, hp, Option.filter_some]⟩
      · exact ⟨below, by simpa [repo, orNotFound, hrow, hp, Option.filter_some] using hbelow⟩

theorem resolve_repo (hrepo : repoID ≠ uuidNil) :
    ∃ source, resolve db.repo tenantID repoID orgID = .ok ⟨db.chain tenantID repoID
        (if orgID = uuidNil then db.namedOrg tenantID repoID else orgID), source⟩ := by
  unfold resolve chain namedOrg
  rw [if_neg hrepo]
  cases hrow : db.repoRow tenantID repoID with
  | none =>
    obtain ⟨source, hsource⟩ := resolveOrg_repo db tenantID orgID
    have horg : (if orgID = uuidNil then uuidNil else orgID) = orgID := by
      split_ifs with h
      · exact h.symm
      · rfl
    exact ⟨source, by simpa [repo, orNotFound, hrow, horg] using hsource⟩
  | some p =>
    by_cases hp : p.enabled = true
    · exact ⟨.repo, by simp [repo, orNotFound, hrow, hp, Option.filter_some]⟩
    · obtain ⟨source, hsource⟩ := resolveOrg_repo db tenantID
        (if orgID = uuidNil then p.orgID else orgID)
      exact ⟨source, by simpa [repo, orNotFound, hrow, hp, Option.filter_some] using hsource⟩

theorem appliedPolicy_repo {parse : String → Option UUID} {tenantIDStr repoIDStr : String}
    (htenant : parse tenantIDStr = some tenantID) (hparse : parse repoIDStr = some repoID)
    (hne : repoIDStr ≠ "") (hrepo : repoID ≠ uuidNil) :
    appliedPolicy (some (policyResolver parse db.repo)) tenantIDStr repoIDStr =
      (db.chain tenantID repoID (db.namedOrg tenantID repoID)).forWorker := by
  obtain ⟨source, hsource⟩ := resolve_repo db tenantID repoID uuidNil hrepo
  rw [if_pos rfl] at hsource
  simp only [appliedPolicy, policyResolver, htenant, if_neg hne, hparse, hsource]

theorem chain_forWorker_eq_iff (orgID' : UUID) :
    (db.chain tenantID repoID orgID).forWorker = (db.chain tenantID repoID orgID').forWorker ↔
      (∃ row, db.repoRow tenantID repoID = some row ∧ row.enabled = true) ∨
        (db.orgPolicy tenantID orgID).forWorker = (db.orgPolicy tenantID orgID').forWorker := by
  cases hrow : db.repoRow tenantID repoID with
  | none => simp [chain, hrow]
  | some row =>
    by_cases hon : row.enabled = true
    · simp [chain, hrow, hon, Option.filter_some]
    · simp [chain, hrow, hon, Option.filter_some]

end Policies

open Policies in
/-- **When the consumers follow the documented chain.** -/
theorem applied_eq_chain_iff (parse : String → Option UUID) (db : Policies)
    (tenantIDStr repoIDStr : String) (tenantID repoID orgID : UUID)
    (htenant : parse tenantIDStr = some tenantID) (hparse : parse repoIDStr = some repoID)
    (hne : repoIDStr ≠ "") (hrepo : repoID ≠ uuidNil) :
    appliedPolicy (some (policyResolver parse db.repo)) tenantIDStr repoIDStr =
        (db.chain tenantID repoID orgID).forWorker ↔
      (∃ row, db.repoRow tenantID repoID = some row ∧ row.enabled = true) ∨
        (db.orgPolicy tenantID (db.namedOrg tenantID repoID)).forWorker =
          (db.orgPolicy tenantID orgID).forWorker := by
  rw [appliedPolicy_repo db tenantID repoID htenant hparse hne hrepo]
  exact chain_forWorker_eq_iff db tenantID repoID _ _

def sampleParse : String → Option UUID
  | "1" => some 1
  | "2" => some 2
  | "3" => some 3
  | _ => none

def samplePolicies (repos : Table ScanPolicy UUID (·.repoID)) : Policies where
  repos := repos
  orgs := .single ⟨1, 3, 0, false, "HIGH", [], "trivy", "", true⟩
  tenants := Table.empty

theorem org_policy_skipped :
    appliedPolicy (some (policyResolver sampleParse (samplePolicies Table.empty).repo)) "1" "2" =
      ⟨true, "", []⟩ ∧
    ((samplePolicies Table.empty).chain 1 2 3).forWorker = ⟨false, "HIGH", []⟩ ∧
    resolve (samplePolicies Table.empty).repo 1 2 3 =
      .ok ⟨⟨1, 3, 0, false, "HIGH", [], "trivy", "", true⟩, .org⟩ := by
  decide

theorem org_policy_applied_through_row :
    appliedPolicy (some (policyResolver sampleParse (samplePolicies
      (.single ⟨1, 3, 2, true, "", [], "trivy", "", false⟩)).repo)) "1" "2" =
        ((samplePolicies (.single ⟨1, 3, 2, true, "", [], "trivy", "", false⟩)).chain
          1 2 3).forWorker :=
  (applied_eq_chain_iff sampleParse _ "1" "2" 1 2 3 rfl rfl (by decide) (by decide)).mpr
    (Or.inr (by decide))

end OciJanus.Scanner.Policy
