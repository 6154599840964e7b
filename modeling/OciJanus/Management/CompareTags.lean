import Mathlib.Data.List.Dedup
import Mathlib.Data.String.Basic
import OciJanus.Core.CvssAdmission
import OciJanus.Verified.Keyset

/-!
# Comparing two tags

Packages and findings are indexed by a name, in Go maps that keep the last entry. An empty
findings text counts as one without findings, whatever the status of its scan.
-/

namespace OciJanus.Management.CompareTags

open Core.CvssAdmission Verified.Keyset List

/-- The entry a map holds for a key after the loop that fills it. -/
def entry {α : Type} (key : α → String) (l : List α) (k : String) : Option α :=
  l.reverse.find? fun a => key a = k

def sortedKeys {α : Type} (key : α → String) (l : List α) : List String :=
  ordered id (l.map key).dedup

/-- The entries of one map whose key the other does not have, by key. -/
def only {α : Type} (key : α → String) (l other : List α) : List α :=
  (sortedKeys key l).filterMap fun k =>
    match entry key l k, entry key other k with
    | some a, none => some a
    | _, _ => none

structure Package where
  (name version : String)
  deriving DecidableEq

structure PackageChange where
  (name fromVersion toVersion : String)

structure PackageDiff where
  (added removed : List Package)
  changed : List PackageChange

def diffPackages (source target : List Package) : PackageDiff where
  added := only (·.name) target source
  changed := (sortedKeys (·.name) target).filterMap fun name =>
    match entry (·.name) target name, entry (·.name) source name with
    | some p, some q => if q.version ≠ p.version then some ⟨name, q.version, p.version⟩ else none
    | _, _ => none
  removed := only (·.name) source target

structure ScanFinding where
  (cve severity package version fixedIn : String)
  deriving DecidableEq

structure VulnDiff where
  available : Bool
  reason : String := ""
  (added removed : List ScanFinding := [])

structure Decoder where
  findings : String → Option (List ScanFinding)
  findings_empty : findings "[]" = some []

section Vulnerabilities

variable (dec : Decoder)

def diffVulns (fromFindings toFindings : String) : VulnDiff :=
  match dec.findings fromFindings with
  | none => ⟨false, "unreadable scan findings for the source tag", [], []⟩
  | some a =>
    match dec.findings toFindings with
    | none => ⟨false, "unreadable scan findings for the target tag", [], []⟩
    | some b => ⟨true, "", only (·.cve) b a, only (·.cve) a b⟩

def fetchFindings (scan : Option ScanResult) : Option String :=
  scan.map fun r => if r.findings = "" then "[]" else r.findings

def buildVulnDiff (source target : Option ScanResult) : VulnDiff :=
  match fetchFindings source with
  | none => ⟨false, "the source tag has not been scanned", [], []⟩
  | some fromFindings =>
    match fetchFindings target with
    | none => ⟨false, "the target tag has not been scanned", [], []⟩
    | some toFindings => diffVulns dec fromFindings toFindings

end Vulnerabilities

section Maps

variable {α : Type} {key : α → String} {l : List α} {k : String} {a : α}

theorem entry_eq_none : entry key l k = none ↔ ∀ a ∈ l, key a ≠ k := by
  simp [entry]

theorem mem_of_entry (h : entry key l k = some a) : a ∈ l ∧ key a = k :=
  ⟨mem_reverse.mp (mem_of_find?_eq_some h), by simpa using List.find?_some h⟩

theorem mem_sortedKeys (h : entry key l k = some a) : k ∈ sortedKeys key l := by
  obtain ⟨hmem, hkey⟩ := mem_of_entry h
  exact (ordered_perm _ _).mem_iff.mpr (mem_dedup.mpr (mem_map.mpr ⟨a, hmem, hkey⟩))

theorem mem_only {other : List α} :
    a ∈ only key l other ↔ entry key l (key a) = some a ∧ entry key other (key a) = none := by
  rw [only, mem_filterMap]
  constructor
  · rintro ⟨k, -, h⟩
    split at h
    · rename_i b hl hother
      cases h
      rw [(mem_of_entry hl).2]
      exact ⟨hl, hother⟩
    · cases h
  · rintro ⟨hl, hother⟩
    exact ⟨key a, mem_sortedKeys hl, by rw [hl, hother]⟩

end Maps

variable {source target : List Package}

theorem mem_changed {c : PackageChange} :
    c ∈ (diffPackages source target).changed ↔
      ∃ p q, entry (·.name) target c.name = some p ∧ entry (·.name) source c.name = some q ∧
        q.version ≠ p.version ∧ c = ⟨c.name, q.version, p.version⟩ := by
  rw [diffPackages, mem_filterMap]
  constructor
  · rintro ⟨name, -, h⟩
    split at h
    · rename_i p q hp hq
      split_ifs at h with hne
      cases h
      exact ⟨p, q, hp, hq, hne, rfl⟩
    · cases h
  · rintro ⟨p, q, hp, hq, hne, hc⟩
    exact ⟨c.name, mem_sortedKeys hp, by simp only [hp, hq]; rw [if_pos hne, ← hc]⟩

/-- **A comparison invents nothing**, also where an SBOM lists a package twice. -/
theorem comparison_sound (source target : List Package) :
    let d := diffPackages source target
    (∀ p ∈ d.added, p ∈ target ∧ ∀ q ∈ source, q.name ≠ p.name) ∧
    (∀ p ∈ d.removed, p ∈ source ∧ ∀ q ∈ target, q.name ≠ p.name) ∧
    ∀ c ∈ d.changed, ⟨c.name, c.fromVersion⟩ ∈ source ∧ ⟨c.name, c.toVersion⟩ ∈ target ∧
      c.fromVersion ≠ c.toVersion := by
  refine ⟨fun p hp => ?_, fun p hp => ?_, fun c hc => ?_⟩
  · exact ⟨(mem_of_entry (mem_only.mp hp).1).1, entry_eq_none.mp (mem_only.mp hp).2⟩
  · exact ⟨(mem_of_entry (mem_only.mp hp).1).1, entry_eq_none.mp (mem_only.mp hp).2⟩
  · obtain ⟨p, q, hp, hq, hne, hc⟩ := mem_changed.mp hc
    obtain ⟨hp, hpname⟩ := mem_of_entry hp
    obtain ⟨hq, hqname⟩ := mem_of_entry hq
    rw [hc]
    exact ⟨hqname ▸ hq, hpname ▸ hp, hne⟩

/-- Every package in only one SBOM is reported, and none that is in both. -/
structure Reported (source target : List Package) (d : PackageDiff) : Prop where
  gained : ∀ p ∈ target, p ∉ source →
    p ∈ d.added ∨ ∃ c ∈ d.changed, c.name = p.name ∧ c.toVersion = p.version
  lost : ∀ p ∈ source, p ∉ target →
    p ∈ d.removed ∨ ∃ c ∈ d.changed, c.name = p.name ∧ c.fromVersion = p.version
  both : ∀ p ∈ source, p ∈ target → p ∉ d.added ∧ p ∉ d.removed ∧
    ∀ c ∈ d.changed, c.name = p.name → c.fromVersion ≠ p.version ∧ c.toVersion ≠ p.version

theorem version_ne {p q : Package} (hname : q.name = p.name) (hne : q ≠ p) :
    q.version ≠ p.version := by
  intro hversion
  cases q
  cases p
  simp_all

/-- The maps hide nothing that matters: a package of one SBOM only is the last of its name there,
and of two last ones that differ neither is in the other SBOM. -/
structure LastDecides (source target : List Package) : Prop where
  gained : ∀ p ∈ target, p ∉ source → entry (·.name) target p.name = some p
  lost : ∀ p ∈ source, p ∉ target → entry (·.name) source p.name = some p
  changed : ∀ p q, entry (·.name) target p.name = some p → entry (·.name) source p.name = some q →
    p = q ∨ p ∉ source ∧ q ∉ target

theorem eq_of_version {p q : Package} (hname : p.name = q.name) (hversion : p.version = q.version) :
    p = q := by
  cases p
  cases q
  simp_all

theorem reported_of_lastDecides (h : LastDecides source target) :
    Reported source target (diffPackages source target) where
  gained p hp hnew := by
    have hlast := h.gained p hp hnew
    cases hentry : entry (·.name) source p.name with
    | none => exact .inl (mem_only.mpr ⟨hlast, hentry⟩)
    | some q =>
      obtain ⟨hq, hname⟩ := mem_of_entry hentry
      have hversion : q.version ≠ p.version := version_ne hname fun h => hnew (h ▸ hq)
      exact .inr ⟨⟨p.name, q.version, p.version⟩,
        mem_changed.mpr ⟨p, q, hlast, hentry, hversion, rfl⟩, rfl, rfl⟩
  lost p hp hnew := by
    have hlast := h.lost p hp hnew
    cases hentry : entry (·.name) target p.name with
    | none => exact .inl (mem_only.mpr ⟨hlast, hentry⟩)
    | some q =>
      obtain ⟨hq, hname⟩ := mem_of_entry hentry
      have hversion : p.version ≠ q.version := (version_ne hname fun h => hnew (h ▸ hq)).symm
      exact .inr ⟨⟨p.name, p.version, q.version⟩,
        mem_changed.mpr ⟨q, p, hentry, hlast, hversion, rfl⟩, rfl, rfl⟩
  both p hps hpt := by
    refine ⟨fun hadd => ?_, fun hrem => ?_, fun c hc hname => ?_⟩
    · exact entry_eq_none.mp (mem_only.mp hadd).2 p hps rfl
    · exact entry_eq_none.mp (mem_only.mp hrem).2 p hpt rfl
    · obtain ⟨p', q', hp', hq', hne, hc⟩ := mem_changed.mp hc
      have hpname := (mem_of_entry hp').2
      have hqname := (mem_of_entry hq').2
      rw [← hpname] at hp' hq'
      rcases h.changed p' q' hp' hq' with rfl | ⟨hps', hqt'⟩
      · exact absurd rfl hne
      · rw [hc]
        exact ⟨fun hv => hqt' (eq_of_version (hqname.trans hname) hv ▸ hpt),
          fun hv => hps' (eq_of_version (hpname.trans hname) hv ▸ hps)⟩

theorem lastDecides_of_reported (h : Reported source target (diffPackages source target)) :
    LastDecides source target where
  gained p hp hnew := by
    rcases h.gained p hp hnew with hadd | ⟨c, hc, hname, hversion⟩
    · exact (mem_only.mp hadd).1
    · obtain ⟨p', q', hp', -, -, hc⟩ := mem_changed.mp hc
      rw [hc] at hversion
      rw [hname] at hp'
      exact eq_of_version (mem_of_entry hp').2 hversion ▸ hp'
  lost p hp hnew := by
    rcases h.lost p hp hnew with hrem | ⟨c, hc, hname, hversion⟩
    · exact (mem_only.mp hrem).1
    · obtain ⟨p', q', -, hq', -, hc⟩ := mem_changed.mp hc
      rw [hc] at hversion
      rw [hname] at hq'
      exact eq_of_version (mem_of_entry hq').2 hversion ▸ hq'
  changed p q hp hq := by
    obtain ⟨hpt, -⟩ := mem_of_entry hp
    obtain ⟨hqs, hname⟩ := mem_of_entry hq
    by_cases hpq : p = q
    · exact .inl hpq
    · have hversion : q.version ≠ p.version := version_ne hname (Ne.symm hpq)
      have hc : ⟨p.name, q.version, p.version⟩ ∈ (diffPackages source target).changed :=
        mem_changed.mpr ⟨p, q, hp, hq, hversion, rfl⟩
      exact .inr ⟨fun hps => ((h.both p hps hpt).2.2 _ hc rfl).2 rfl,
        fun hqt => ((h.both q hqs hqt).2.2 _ hc hname.symm).1 rfl⟩

/-- The target has a completed scan that does not find the CVE. -/
def FixedIn (dec : Decoder) (target : Option ScanResult) (cve : String) : Prop :=
  ∃ r text findings, target = some r ∧ r.status = .complete ∧ fetchFindings target = some text ∧
    dec.findings text = some findings ∧ ∀ f ∈ findings, f.cve ≠ cve

/-- The findings of the source name a CVE that those of the target do not. -/
def Missing (dec : Decoder) (source target : Option ScanResult) (cve : String) : Prop :=
  ∃ a b, (fetchFindings source).bind dec.findings = some a ∧
    (fetchFindings target).bind dec.findings = some b ∧
    (∃ f ∈ a, f.cve = cve) ∧ ∀ f ∈ b, f.cve ≠ cve

theorem removed_iff {dec : Decoder} {source target : Option ScanResult} {cve : String} :
    (∃ f ∈ (buildVulnDiff dec source target).removed, f.cve = cve) ↔
      Missing dec source target cve := by
  unfold buildVulnDiff Missing
  cases fetchFindings source with
  | none => simp
  | some fromText =>
    cases fetchFindings target with
    | none => simp
    | some toText =>
      simp only [diffVulns, Option.bind_some]
      cases dec.findings fromText with
      | none => simp
      | some a =>
        cases dec.findings toText with
        | none => simp
        | some b =>
          simp only [Option.some.injEq, exists_and_left, exists_eq_left', mem_only]
          constructor
          · rintro ⟨f, ⟨hf, hnone⟩, rfl⟩
            exact ⟨⟨f, (mem_of_entry hf).1, rfl⟩, entry_eq_none.mp hnone⟩
          · rintro ⟨⟨f, hf, rfl⟩, hnone⟩
            cases hentry : entry (·.cve) a f.cve with
            | none => exact absurd rfl (entry_eq_none.mp hentry f hf)
            | some g =>
              have hg := (mem_of_entry hentry).2
              exact ⟨g, ⟨hg ▸ hentry, hg ▸ entry_eq_none.mpr hnone⟩, hg⟩

theorem fixedIn_iff_of_missing {dec : Decoder} {source target : Option ScanResult} {cve : String}
    (h : Missing dec source target cve) :
    FixedIn dec target cve ↔ ∃ r, target = some r ∧ r.status = .complete := by
  obtain ⟨-, b, -, hb, -, hnone⟩ := h
  constructor
  · rintro ⟨r, -, -, hr, hstatus, -⟩
    exact ⟨r, hr, hstatus⟩
  · rintro ⟨r, hr, hstatus⟩
    obtain ⟨text, htext, hfindings⟩ := Option.bind_eq_some_iff.mp hb
    exact ⟨r, text, b, hr, hstatus, htext, hfindings, hnone⟩

/-- **A comparison is faithful** if and only if the last entries of each name decide, and the newest
scan of the target is complete wherever a CVE of the source is missing in it. -/
theorem comparison_faithful_iff (dec : Decoder) (source target : List Package)
    (sourceScan targetScan : Option ScanResult) :
    (Reported source target (diffPackages source target) ∧
      ∀ f ∈ (buildVulnDiff dec sourceScan targetScan).removed, FixedIn dec targetScan f.cve) ↔
      LastDecides source target ∧ ((∃ cve, Missing dec sourceScan targetScan cve) →
        ∃ r, targetScan = some r ∧ r.status = .complete) := by
  refine and_congr ⟨lastDecides_of_reported, reported_of_lastDecides⟩ ⟨?_, fun h f hf => ?_⟩
  · rintro h ⟨cve, hmissing⟩
    obtain ⟨f, hf, rfl⟩ := removed_iff.mpr hmissing
    exact (fixedIn_iff_of_missing hmissing).mp (h f hf)
  · have hmissing := removed_iff.mp ⟨f, hf, rfl⟩
    exact (fixedIn_iff_of_missing hmissing).mpr (h ⟨f.cve, hmissing⟩)

def oneFinding : Decoder where
  findings text := if text = "[]" then some [] else some [⟨"CVE-1", "HIGH", "p", "1", ""⟩]
  findings_empty := rfl

def scan (status : ScanStatus) (findings : String) : Option ScanResult :=
  some ⟨"s", "d", "r", "t", "trivy", "1", status, noCounts, findings, none, none, 0⟩

theorem comparison_misreports :
    ¬ Reported [⟨"p", "2"⟩] [⟨"p", "1"⟩, ⟨"p", "2"⟩]
      (diffPackages [⟨"p", "2"⟩] [⟨"p", "1"⟩, ⟨"p", "2"⟩]) ∧
    ∃ f ∈ (buildVulnDiff oneFinding (scan .complete "x") (scan .failed "")).removed,
      ¬ FixedIn oneFinding (scan .failed "") f.cve := by
  constructor
  · intro h
    rcases h.gained ⟨"p", "1"⟩ (by simp) (by simp) with hadded | ⟨c, hc, hname, hversion⟩
    · exact absurd (mem_only.mp hadded).2 (by decide)
    · obtain ⟨p, q, hp, hq, hne, -⟩ := mem_changed.mp hc
      rw [hname] at hp hq
      cases hp
      cases hq
      exact hne rfl
  · refine ⟨⟨"CVE-1", "HIGH", "p", "1", ""⟩, ?_, ?_⟩
    · exact mem_only.mpr ⟨by decide, by decide⟩
    · rintro ⟨r, _, _, hr, hstatus, -⟩
      cases hr
      cases hstatus

end OciJanus.Management.CompareTags
