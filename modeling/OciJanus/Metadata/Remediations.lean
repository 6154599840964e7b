import OciJanus.Metadata.Vulnerabilities
import OciJanus.Verified.GoStrings
import Mathlib.Data.Finset.Sort

/-!
# The remediations of a tenant

`isRollup_of_mem` says what a row holds in terms of the set of findings of its group, so neither
rows nor pages depend on the order of the scans.
-/

namespace OciJanus.Metadata.Remediations

open Verified Keyset Rollup GoStrings ScanHistory Vulnerabilities List

def int32 (v : Int) : Int := v.bmod 4294967296

structure RemediationRow where
  (packageName fromVersion toVersion : String)
  cvesFixed : List String
  cvesFixedCount : Int
  maxSeverity : String
  affected : List AffectedTag
  affectedCount : Int
  deriving DecidableEq

abbrev GroupKey := String ×ₗ String ×ₗ String

def groupKey (f : Finding) : GroupKey := toLex (f.package, toLex (f.version, f.fixedIn))

def RemediationRow.group (r : RemediationRow) : GroupKey :=
  toLex (r.packageName, toLex (r.fromVersion, r.toVersion))

structure Group where
  row : RemediationRow
  affectedSeen : List AffectedTag

def note {α : Type} [DecidableEq α] (a : α) (l : List α) : List α := if a ∈ l then l else l ++ [a]

variable (u : Unicode)

def worstOf (f : Finding) : Option Group → Group
  | none => ⟨⟨f.package, f.version, f.fixedIn, [], 0, u.upper f.severity, [], 0⟩, []⟩
  | some g =>
    if severityRank u f.severity < severityRank u g.row.maxSeverity then
      { g with row.maxSeverity := u.upper f.severity }
    else g

def addAffected (t : AffectedTag) (g : Group) : Group :=
  if t ∈ g.affectedSeen then g
  else
    let count := int32 (g.row.affectedCount + 1)
    { affectedSeen := g.affectedSeen ++ [t]
      row := { g.row with
        affectedCount := count
        affected := if count ≤ 10 then g.row.affected ++ [t] else g.row.affected } }

def addFinding (x : ScanRow × Finding) (g : Option Group) : Group :=
  let g := worstOf u x.2 g
  addAffected x.1.affected (if x.2.cve = "" then g
    else { g with row.cvesFixed := note x.2.cve g.row.cvesFixed })

def finalise (g : Group) : RemediationRow :=
  { g.row with
    cvesFixed := g.row.cvesFixed.insertionSort (· ≤ ·)
    cvesFixedCount := int32 g.row.cvesFixed.length }

def fixable (rows : List ScanRow) : List (ScanRow × Finding) :=
  (observed rows).filter fun x => x.2.fixedIn ≠ "" ∧ x.2.fixedIn ≠ x.2.version

def rollupRemediations (rows : List ScanRow) : List RemediationRow :=
  (values (rollup (fun x => groupKey x.2) (addFinding u) (fixable rows))).map finalise

def sortKey (r : RemediationRow) : Nat ×ₗ Int ×ₗ GroupKey :=
  toLex (severityRank u r.maxSeverity, toLex (-r.cvesFixedCount, r.group))

section
variable (group : List (ScanRow × Finding))

def cves : Finset String := (group.map (·.2.cve)).toFinset.erase ""

def tags : Finset AffectedTag := (group.map (·.1.affected)).toFinset

def Worst (sev : String) : Prop := ∃ x ∈ group, sev = u.upper x.2.severity ∧
  ∀ y ∈ group, severityRank u x.2.severity ≤ severityRank u y.2.severity

structure IsRollup (r : RemediationRow) : Prop where
  cvesFixed : r.cvesFixed = (cves group).sort (· ≤ ·)
  cvesFixedCount : r.cvesFixedCount = int32 (cves group).card
  maxSeverity : Worst u group r.maxSeverity
  affectedCount : r.affectedCount = int32 (tags group).card
  affected : (tags group).card < 2147483648 → r.affected.Nodup ∧
    r.affected.length = min 10 (tags group).card ∧ ∀ t ∈ r.affected, t ∈ tags group

end

structure Collected (cves : Finset String) (tags : Finset AffectedTag) (g : Group) : Prop where
  nodup : g.row.cvesFixed.Nodup
  cvesFixed : g.row.cvesFixed.toFinset = cves
  seen_nodup : g.affectedSeen.Nodup
  seen : g.affectedSeen.toFinset = tags
  affectedCount : g.row.affectedCount = int32 g.affectedSeen.length
  affected : g.affectedSeen.length < 2147483648 → g.row.affected = g.affectedSeen.take 10

variable {u}

theorem int32_of_lt {n : Nat} (h : n < 2147483648) : int32 n = n := by
  rw [int32, Int.bmod_eq_of_le] <;> omega

theorem nodup_concat {α : Type} {a : α} {l : List α} (h : l.Nodup) (ha : a ∉ l) :
    (l ++ [a]).Nodup :=
  nodup_append.mpr ⟨h, by simp, by grind⟩

section
variable {c : Finset String} {t : Finset AffectedTag} {g : Group} (hg : Collected c t g)
include hg

theorem Collected.addCve (cve : String) :
    Collected (insert cve c) t { g with row.cvesFixed := note cve g.row.cvesFixed } := by
  by_cases hmem : cve ∈ g.row.cvesFixed
  · have hin : cve ∈ c := hg.cvesFixed ▸ mem_toFinset.mpr hmem
    simpa [note, hmem, Finset.insert_eq_of_mem hin] using hg
  · simp only [note, hmem, if_false]
    exact { hg with
      nodup := nodup_concat hg.nodup hmem
      cvesFixed := by simp [← hg.cvesFixed] }

theorem Collected.addAffected (tag : AffectedTag) :
    Collected c (insert tag t) (addAffected tag g) := by
  unfold Remediations.addAffected
  split_ifs with hmem
  · have hin : tag ∈ t := hg.seen ▸ mem_toFinset.mpr hmem
    exact { hg with seen := by rw [Finset.insert_eq_of_mem hin, hg.seen] }
  · have hcount : int32 (g.row.affectedCount + 1) = int32 (g.affectedSeen ++ [tag]).length := by
      simp [hg.affectedCount, int32]
    refine { hg with
      seen_nodup := nodup_concat hg.seen_nodup hmem
      seen := ?_, affectedCount := hcount, affected := fun hlt => ?_ }
    · rw [← hg.seen]
      ext
      simp
    · rw [hcount, int32_of_lt hlt]
      rw [length_append, length_singleton] at hlt ⊢
      dsimp only
      rw [hg.affected (by omega)]
      split_ifs with hle
      · rw [take_of_length_le (by omega), take_of_length_le (by simp; omega)]
      · rw [take_append_of_le_length (by omega)]

theorem Collected.isRollup (hsev : Worst u group g.row.maxSeverity) (hc : c = cves group)
    (ht : t = tags group) : IsRollup u group (finalise g) := by
  have hcard : g.row.cvesFixed.length = c.card :=
    hg.cvesFixed ▸ (toFinset_card_of_nodup hg.nodup).symm
  have hseen : g.affectedSeen.length = t.card :=
    hg.seen ▸ (toFinset_card_of_nodup hg.seen_nodup).symm
  subst hc ht
  have hcount : (finalise g).affectedCount = int32 (tags group).card := by
    rw [← hseen]
    exact hg.affectedCount
  refine ⟨?_, by simp only [finalise, hcard], hsev, hcount, fun hlt => ?_⟩
  · have hperm := perm_insertionSort (· ≤ ·) g.row.cvesFixed
    rw [← hg.cvesFixed, ← toFinset_eq_of_perm _ _ hperm]
    exact ((toFinset_sort _ (hperm.nodup_iff.mpr hg.nodup)).mpr
      (pairwise_insertionSort _ _)).symm
  · have haff : (finalise g).affected = g.affectedSeen.take 10 := hg.affected (hseen ▸ hlt)
    rw [haff, length_take, hseen]
    refine ⟨hg.seen_nodup.sublist (take_sublist _ _), rfl, fun tag htag => ?_⟩
    rw [← hg.seen, mem_toFinset]
    exact mem_of_mem_take htag

end

theorem addAffected_kept (tag : AffectedTag) (g : Group) :
    (addAffected tag g).row.maxSeverity = g.row.maxSeverity ∧
      (addAffected tag g).row.group = g.row.group := by
  unfold addAffected
  split_ifs <;> exact ⟨rfl, rfl⟩

section
variable {group : List (ScanRow × Finding)} {x : ScanRow × Finding} {g : Option Group}
  (hnone : g = none → group = [])
include hnone

theorem collected_worstOf (hg : ∀ h ∈ g, Collected (cves group) (tags group) h) (f : Finding) :
    Collected (cves group) (tags group) (worstOf u f g) := by
  cases g with
  | none =>
    rw [hnone rfl]
    constructor <;> simp [worstOf, cves, tags, int32]
  | some g =>
    have hg := hg g rfl
    simp only [worstOf]
    split_ifs
    · exact { hg with }
    · exact hg

theorem worst_worstOf (hg : ∀ h ∈ g, Worst u group h.row.maxSeverity) :
    Worst u (group ++ [x]) (worstOf u x.2 g).row.maxSeverity := by
  cases g with
  | none => exact ⟨x, by simp [hnone rfl, worstOf]⟩
  | some g =>
    obtain ⟨y, hy, hsev, hmin⟩ := hg g rfl
    simp only [worstOf, hsev, severityRank_upper]
    split_ifs with hlt
    · refine ⟨x, by simp, rfl, fun z hz => ?_⟩
      rcases mem_append.mp hz with hz | hz
      · exact hlt.le.trans (hmin z hz)
      · rw [mem_singleton.mp hz]
    · refine ⟨y, by simp [hy], hsev, fun z hz => ?_⟩
      rcases mem_append.mp hz with hz | hz
      · exact hmin z hz
      · rw [mem_singleton.mp hz]
        exact Nat.not_lt.mp hlt

theorem addFinding_spec (hg : ∀ h ∈ g, Collected (cves group) (tags group) h ∧
      Worst u group h.row.maxSeverity) :
    Collected (cves (group ++ [x])) (tags (group ++ [x])) (addFinding u x g) ∧
      Worst u (group ++ [x]) (addFinding u x g).row.maxSeverity := by
  have hworst := worst_worstOf (x := x) hnone fun h hh => (hg h hh).2
  have hkept := collected_worstOf (u := u) hnone (fun h hh => (hg h hh).1) x.2
  have htags : tags (group ++ [x]) = insert x.1.affected (tags group) := by
    simp [tags]
  have hfound : ((group ++ [x]).map (·.2.cve)).toFinset =
      insert x.2.cve (group.map (·.2.cve)).toFinset := by
    simp
  simp only [addFinding, htags, (addAffected_kept _ _).1]
  split_ifs with hcve
  · rw [cves, hfound, hcve, Finset.erase_insert_eq_erase]
    exact ⟨hkept.addAffected _, hworst⟩
  · rw [cves, hfound, Finset.erase_insert_of_ne hcve]
    exact ⟨(hkept.addCve _).addAffected _, hworst⟩

end

theorem addFinding_group (x : ScanRow × Finding) (g : Option Group)
    (hg : ∀ h ∈ g, h.row.group = groupKey x.2) : (addFinding u x g).row.group = groupKey x.2 := by
  have hworst : (worstOf u x.2 g).row.group = groupKey x.2 := by
    cases g with
    | none => rfl
    | some g =>
      simp only [worstOf]
      split_ifs <;> exact hg g rfl
  rw [addFinding, (addAffected_kept _ _).2]
  split_ifs <;> exact hworst

section
variable {rows : List ScanRow} {r : RemediationRow}

def groupOf (rows : List ScanRow) (k : GroupKey) : List (ScanRow × Finding) :=
  (fixable rows).filter (groupKey ·.2 = k)

theorem isRollup_of_mem (hr : r ∈ rollupRemediations u rows) :
    IsRollup u (groupOf rows r.group) r := by
  obtain ⟨g, hg, rfl⟩ := mem_map.mp hr
  have hspec := ofGroup_spec (addFinding u) (P := fun group g =>
    Collected (cves group) (tags group) g ∧ Worst u group g.row.maxSeverity)
    (fun group x ih => addFinding_spec (fun hnone => by
      by_contra hne
      have := (ofGroup_isSome (addFinding u) group).mpr hne
      simp [hnone] at this) ih)
    ((mem_values addFinding_group).mp hg)
  exact hspec.1.isRollup hspec.2 rfl rfl

theorem map_group : (rollupRemediations u rows).map (·.group) =
    (rollup (fun x => groupKey x.2) (addFinding u) (fixable rows)).keys := by
  rw [rollupRemediations, map_map]
  exact map_values addFinding_group

theorem nodup_group : ((rollupRemediations u rows).map (·.group)).Nodup :=
  map_group ▸ AList.keys_nodup _

theorem mem_group {k : GroupKey} : k ∈ (rollupRemediations u rows).map (·.group) ↔
    ∃ x ∈ fixable rows, groupKey x.2 = k := by
  rw [map_group, mem_keys_rollup]

def blurred (u : Unicode) (r : RemediationRow) : Nat × RemediationRow :=
  (severityRank u r.maxSeverity, { r with maxSeverity := "", affected := [] })

theorem IsRollup.blurred_eq {group group' : List (ScanRow × Finding)} {r' : RemediationRow}
    (hmem : ∀ x, x ∈ group' ↔ x ∈ group) (h : IsRollup u group r) (h' : IsRollup u group' r')
    (hgroup : r'.group = r.group) : blurred u r' = blurred u r := by
  have hcves : cves group' = cves group := by
    ext
    simp [cves, hmem]
  have htags : tags group' = tags group := by
    ext
    simp [tags, hmem]
  obtain ⟨x, hx, hsev, hmin⟩ := h.maxSeverity
  obtain ⟨y, hy, hsev', hmin'⟩ := h'.maxSeverity
  have hrank : severityRank u r'.maxSeverity = severityRank u r.maxSeverity := by
    rw [hsev, hsev', severityRank_upper, severityRank_upper]
    exact le_antisymm (hmin' x ((hmem x).mpr hx)) (hmin y ((hmem y).mp hy))
  have := h.cvesFixed
  have := h.cvesFixedCount
  have := h.affectedCount
  have := h'.cvesFixed
  have := h'.cvesFixedCount
  have := h'.affectedCount
  simp_all [blurred, RemediationRow.group]

theorem blurred_of_perm {rows' : List ScanRow} (h : rows'.Perm rows) {b : Nat × RemediationRow}
    (hb : b ∈ (rollupRemediations u rows).map (blurred u)) :
    b ∈ (rollupRemediations u rows').map (blurred u) := by
  obtain ⟨r, hr, rfl⟩ := mem_map.mp hb
  have hfix : (fixable rows').Perm (fixable rows) := (h.flatMap_right _).filter _
  obtain ⟨x, hx, hkey⟩ := mem_group.mp (mem_map.mpr ⟨r, hr, rfl⟩)
  obtain ⟨r', hr', hgroup⟩ := mem_map.mp
    (mem_group (u := u).mpr ⟨x, hfix.mem_iff.mpr hx, hkey⟩)
  have hmem : ∀ x, x ∈ groupOf rows' r'.group ↔ x ∈ groupOf rows r.group := fun x =>
    hgroup ▸ (hfix.filter _).mem_iff
  exact mem_map.mpr ⟨r', hr',
    (isRollup_of_mem hr).blurred_eq hmem (isRollup_of_mem hr') hgroup⟩

theorem nodup_blurred : ((rollupRemediations u rows).map (blurred u)).Nodup := by
  refine List.Nodup.of_map (·.2.group) ?_
  rw [map_map]
  exact nodup_group

theorem blurred_perm {rows' : List ScanRow} (h : rows'.Perm rows) :
    ((rollupRemediations u rows').map (blurred u)).Perm
      ((rollupRemediations u rows).map (blurred u)) :=
  (perm_ext_iff_of_nodup nodup_blurred nodup_blurred).mpr fun _ =>
    ⟨blurred_of_perm h.symm, blurred_of_perm h⟩

def keyOf (b : Nat × RemediationRow) : Nat ×ₗ Int ×ₗ GroupKey :=
  toLex (b.1, toLex (-b.2.cvesFixedCount, b.2.group))

theorem nodup_sortKey : ((rollupRemediations u rows).map (sortKey u)).Nodup := by
  refine List.Nodup.of_map (fun k => (ofLex (ofLex k).2).2) ?_
  rw [map_map]
  exact nodup_group

end

/-- **The rows are the rollup of their groups**, and the counts are right below `2 ^ 31`. -/
theorem rollup_exact (u : Unicode) (rows : List ScanRow) :
    ((rollupRemediations u rows).map (·.group)).Nodup ∧
    (∀ k, k ∈ (rollupRemediations u rows).map (·.group) ↔ ∃ x ∈ fixable rows, groupKey x.2 = k) ∧
    (∀ r ∈ rollupRemediations u rows, IsRollup u (groupOf rows r.group) r ∧
      ((cves (groupOf rows r.group)).card < 2147483648 →
        r.cvesFixedCount = r.cvesFixed.length) ∧
      ((tags (groupOf rows r.group)).card < 2147483648 →
        r.affectedCount = (tags (groupOf rows r.group)).card)) ∧
    ∀ rows', rows'.Perm rows →
      (ordered (sortKey u) (rollupRemediations u rows')).map (blurred u) =
        (ordered (sortKey u) (rollupRemediations u rows)).map (blurred u) := by
  refine ⟨nodup_group, fun k => mem_group, fun r hr => ?_, fun rows' h => ?_⟩
  · have hrow := isRollup_of_mem hr
    refine ⟨hrow, fun hlt => ?_, fun hlt => ?_⟩
    · rw [hrow.cvesFixedCount, hrow.cvesFixed, Finset.length_sort, int32_of_lt hlt]
    · rw [hrow.affectedCount, int32_of_lt hlt]
  · exact map_ordered_congr keyOf (fun _ => rfl) nodup_sortKey (blurred_perm h)

def fixed (cve pkg : String) : Finding := ⟨cve, "HIGH", pkg, "1", "2", ""⟩

def tagged (cve pkg tag : String) : ScanRow := ⟨⟨"o/r", tag, "sha256:0"⟩, [fixed cve pkg], none⟩

theorem two_tags_rolled_up :
    let rows := [tagged "CVE-1" "p" "a", tagged "CVE-1" "p" "b"]
    (rollupRemediations upperCase rows).map (·.affectedCount) = [2] ∧
      ∀ r ∈ rollupRemediations upperCase rows, IsRollup upperCase (groupOf rows r.group) r :=
  ⟨by decide, fun r hr => ((rollup_exact upperCase _).2.2.1 r hr).1⟩

def manyTags (n : Nat) : List ScanRow :=
  (List.range n).map fun i => tagged "CVE-1" "p" (Nat.repr i)

theorem card_manyTags {n : Nat} (hn : 0 < n) : ∃ r ∈ rollupRemediations upperCase (manyTags n),
    (tags (groupOf (manyTags n) r.group)).card = n := by
  have hfix : fixable (manyTags n) = (manyTags n).map fun row => (row, fixed "CVE-1" "p") := by
    simp [fixable, observed, manyTags, tagged, fixed, flatMap_map, ← map_eq_flatMap,
      Function.comp_def]
  have hfirst : (tagged "CVE-1" "p" "0", fixed "CVE-1" "p") ∈ fixable (manyTags n) := by
    rw [hfix]
    exact mem_map_of_mem (mem_map.mpr ⟨0, mem_range.mpr hn, rfl⟩)
  obtain ⟨r, hr, hgroup⟩ := mem_map.mp (mem_group (u := upperCase).mpr ⟨_, hfirst, rfl⟩)
  refine ⟨r, hr, ?_⟩
  have hall : groupOf (manyTags n) r.group = fixable (manyTags n) := by
    rw [groupOf, hgroup, filter_eq_self, hfix]
    simp
  rw [hall, hfix, tags, toFinset_card_of_nodup]
  · simp [manyTags]
  · simp only [manyTags, map_map]
    refine nodup_range.map fun i j hij => ?_
    have hread := congrArg (fun t : AffectedTag => Nat.ofDigitChars 10 t.tag.toList 0) hij
    simpa [tagged, Nat.repr, Nat.ofDigitChars_ten_toDigits] using hread

theorem affected_count_overflows :
    ∃ r ∈ rollupRemediations upperCase (manyTags 2147483648),
      (tags (groupOf (manyTags 2147483648) r.group)).card = 2147483648 ∧
      r.affectedCount = -2147483648 := by
  obtain ⟨r, hr, hcard⟩ := card_manyTags (n := 2147483648) (by decide)
  refine ⟨r, hr, hcard, ?_⟩
  rw [(isRollup_of_mem hr).affectedCount, hcard]
  rfl

abbrev Token := Nat × Int × String

end OciJanus.Metadata.Remediations
