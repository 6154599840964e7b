import OciJanus.Metadata.ScanHistory
import OciJanus.Verified.Rollup
import Mathlib.Data.List.Dedup
import Mathlib.Data.String.Basic

/-!
# The vulnerabilities of a tenant

A row has the severity of the first finding of its CVE, in whatever order the query returns them.
-/

namespace OciJanus.Metadata.Vulnerabilities

open Verified Keyset Rfc3339 Rollup ScanHistory List

structure Finding where
  (cve severity package version fixedIn description : String)
  deriving DecidableEq

structure AffectedTag where
  (repo tag digest : String)
  deriving DecidableEq

structure ScanRow where
  affected : AffectedTag
  findings : List Finding
  completedAt : Option Time
  deriving DecidableEq

structure Unicode where
  toUpper : Char → Char
  toUpper_idem : ∀ c, toUpper (toUpper c) = toUpper c
  equalFold : String → String → Bool

variable (u : Unicode)

def Unicode.upper (s : String) : String := String.ofList (s.toList.map u.toUpper)

def severityRank (sev : String) : Nat :=
  match u.upper sev with
  | "CRITICAL" => 1
  | "HIGH" => 2
  | "MEDIUM" => 3
  | "LOW" => 4
  | "NEGLIGIBLE" => 5
  | _ => 99

theorem severityRank_upper (sev : String) : severityRank u (u.upper sev) = severityRank u sev := by
  have hidem : u.upper (u.upper sev) = u.upper sev := by
    simp [Unicode.upper, Function.comp_def, u.toUpper_idem]
  rw [severityRank, hidem, ← severityRank]

def observed (rows : List ScanRow) : List (ScanRow × Finding) :=
  rows.flatMap fun r => r.findings.map (r, ·)

structure VulnerabilityRow where
  (cve severity title description fixedIn packageName packageVersion : String)
  affected : List AffectedTag
  (firstSeen lastSeen : Time)

def newRow (ts : Time) (f : Finding) : VulnerabilityRow :=
  ⟨f.cve, u.upper f.severity, f.cve, f.description, f.fixedIn, f.package, f.version, [], ts, ts⟩

def addFinding (x : ScanRow × Finding) (row : Option VulnerabilityRow) : VulnerabilityRow :=
  let ts := x.1.completedAt.getD 0
  let v := row.getD (newRow u ts x.2)
  { v with
    affected := if x.1.affected ∈ v.affected then v.affected else v.affected ++ [x.1.affected]
    firstSeen := if ts ≠ 0 ∧ (ts < v.firstSeen ∨ v.firstSeen = 0) then ts else v.firstSeen
    lastSeen := if ts ≠ 0 ∧ v.lastSeen < ts then ts else v.lastSeen }

section
variable (severityFilter : String) (rows : List ScanRow)

def filtered : List (ScanRow × Finding) :=
  (observed rows).filter fun x => x.2.cve ≠ "" ∧
    (severityFilter = "" ∨ u.equalFold x.2.severity severityFilter)

def byCVE : List VulnerabilityRow :=
  values (rollup (·.2.cve) (addFinding u) (filtered u severityFilter rows))

def sortKey (v : VulnerabilityRow) : Nat ×ₗ String := toLex (severityRank u v.severity, v.cve)

def listTenantVulnerabilities (limit : Int) (pageToken : Option (Nat ×ₗ String)) :
    Option (List VulnerabilityRow × Option (Nat ×ₗ String)) :=
  listPage (sortKey u) id some (clampLimit limit) (byCVE u severityFilter rows) pageToken

end

variable {u} {severityFilter : String} {rows : List ScanRow}

theorem addFinding_cve (x : ScanRow × Finding) (row : Option VulnerabilityRow)
    (hrow : ∀ v ∈ row, v.cve = x.2.cve) : (addFinding u x row).cve = x.2.cve := by
  cases row with
  | none => rfl
  | some v => exact hrow v rfl

theorem map_cve : (byCVE u severityFilter rows).map (·.cve) =
    (rollup (·.2.cve) (addFinding u) (filtered u severityFilter rows)).keys :=
  map_values addFinding_cve

theorem nodup_cve : ((byCVE u severityFilter rows).map (·.cve)).Nodup :=
  map_cve ▸ AList.keys_nodup _

theorem nodup_sortKey : ((byCVE u severityFilter rows).map (sortKey u)).Nodup := by
  refine List.Nodup.of_map (fun k => (ofLex k).2) ?_
  rw [map_map]
  exact nodup_cve

def upperCase : Unicode := ⟨id, fun _ => rfl, fun s t => s = t⟩

end OciJanus.Metadata.Vulnerabilities
