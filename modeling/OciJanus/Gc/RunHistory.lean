import OciJanus.Gc.Runs
import OciJanus.Verified.Keyset
import OciJanus.Verified.Rfc3339

/-!
# The pages of the run history

The last row was scanned with the epoch in place of a NULL, and the token leaves out every time up
to the end of 1970.
-/

namespace OciJanus.Gc.RunHistory

open Gc.Runs Verified.Keyset Verified.Rfc3339 List

def year (t : Time) : Int := (yearDay (t / 86400000000000)).year

def epoch : Time := 62135596800000000000

structure PageToken where
  completed : Option Time
  runID : Nat

def encodePageToken (completed : Time) (runID : Nat) : PageToken :=
  ⟨if completed ≠ 0 ∧ 1970 < year completed then some completed else none, runID⟩

def decodePageToken (token : PageToken) : Option (Option Time × Nat) :=
  if ∀ t ∈ token.completed, year t ≤ 9999 then some (token.completed, token.runID) else none

structure ListRunsFilters where
  repoID : Option String := none
  modes : List String := []
  triggeredBy : String := ""
  dateFrom : Option Time := none
  dateTo : Option Time := none

def modeText : RunMode → String
  | .sweep .dryRun => "dry-run"
  | .sweep .manifests => "manifests"
  | .sweep .blobs => "blobs"
  | .sweep .full => "full"
  | .retention => "retention"
  | .retentionGrace => "retention_grace"

section
-- `ILIKE '%' || $6 || '%'`
variable (ilike : String → String → Bool) (rows : List GCRun) (limit : Nat) (f : ListRunsFilters)

def matching (r : GCRun) : Bool :=
  let anchor := (r.completedAt.or r.startedAt).getD r.requestedAt
  f.repoID.all (r.repoID == some ·) && (f.modes.isEmpty || f.modes.contains (modeText r.mode)) &&
    (f.triggeredBy == "" || ilike r.triggeredBy f.triggeredBy) &&
    f.dateFrom.all (· ≤ anchor) && f.dateTo.all (anchor < ·)

def behind (since : Option (Option Time × Nat)) (r : GCRun) : Bool :=
  match since with
  | none => true
  | some (some t, id) => r.completedAt.all fun c => c < t || c = t && id < r.runID
  | some (none, id) => r.completedAt.isNone && id < r.runID

def sortKey (r : GCRun) : Bool ×ₗ Int ×ₗ Nat :=
  toLex (r.completedAt.isNone, toLex (-r.completedAt.getD 0, r.runID))

def selectRuns (since : Option (Option Time × Nat)) : List GCRun :=
  ((rows.filter fun r => behind since r && matching ilike f r).insertionSort
    fun a b => sortKey a ≤ sortKey b).take limit

def tokenOf (r : GCRun) : PageToken := encodePageToken (r.completedAt.getD epoch) r.runID

def listRuns (token : Option PageToken) : Option (List GCRun × Option PageToken) := do
  let since ← token.mapM decodePageToken
  let out := selectRuns ilike rows limit f since
  return (out, if out.length = limit then out.getLast?.map tokenOf else none)

end

variable {ilike : String → String → Bool} {rows : List GCRun} {limit : Nat} {f : ListRunsFilters}

/-- A run that can end a page: without an end, completed in the years 1971 to 9999, or earlier and
with only greater ids, without an end, behind it. -/
def EndsPage (r : GCRun) (rest : List GCRun) : Prop :=
  match r.completedAt with
  | none => True
  | some t =>
    if 1970 < year t then year t ≤ 9999
    else ∀ x ∈ rest, x.completedAt = none ∧ r.runID < x.runID

theorem decode_tokenOf {r : GCRun} (h : ∀ t ∈ r.completedAt, 1970 < year t ∧ year t ≤ 9999) :
    decodePageToken (tokenOf r) = some (r.completedAt, r.runID) := by
  unfold tokenOf encodePageToken decodePageToken
  cases hc : r.completedAt with
  | none =>
    have hepoch : ¬ 1970 < year epoch := by decide
    simp [hepoch]
  | some t =>
    obtain ⟨hlow, hhigh⟩ := h t hc
    have hzero : t ≠ 0 := by
      rintro rfl
      exact absurd hlow (by decide)
    simp [hzero, hlow, hhigh]

theorem behind_iff (c : Option Time) (id : Nat) (r : GCRun) :
    behind (some (c, id)) r = true ↔ toLex (c.isNone, toLex (-c.getD 0, id)) < sortKey r := by
  unfold behind sortKey
  cases c with
  | none => cases r.completedAt <;> simp [Prod.Lex.toLex_lt_toLex]
  | some t =>
    cases r.completedAt with
    | none => simp [Prod.Lex.toLex_lt_toLex]
    | some c => simp [Prod.Lex.toLex_lt_toLex, eq_comm (a := c)]

theorem behind_mono {since : Option (Option Time × Nat)} {a b : GCRun}
    (hab : sortKey a < sortKey b) (h : behind since a = true) : behind since b = true := by
  cases since with
  | none => rfl
  | some since => exact (behind_iff _ _ b).mpr (((behind_iff _ _ a).mp h).trans hab)

theorem nodup_sortKey (hids : (rows.map (·.runID)).Nodup) :
    ((rows.filter (matching ilike f)).map sortKey).Nodup := by
  have hkeys : ((rows.map sortKey).map fun k => (ofLex (ofLex k).2).2).Nodup := by
    rwa [map_map]
  exact hkeys.of_map.sublist (filter_sublist.map _)

theorem listRuns_paged (hids : (rows.map (·.runID)).Nodup) (hlimit : 1 ≤ limit) :
    Paged (fun _ => listRuns ilike rows limit f) id sortKey (rows.filter (matching ilike f)) tokenOf
      (fun r => decodePageToken (tokenOf r)) behind limit limit where
  pos := hlimit
  bounds := ⟨le_rfl, Nat.le_succ limit⟩
  nodup := nodup_sortKey hids
  all _ := rfl
  mono _ _ _ _ _ := behind_mono
  page _ last := by
    have hselect : ∀ since, selectRuns ilike rows limit f since =
        ((ordered sortKey (rows.filter (matching ilike f))).filter (behind since)).take limit := by
      intro since
      rw [← ordered_filter (nodup_sortKey hids), filter_filter]
      rfl
    unfold listRuns remaining
    cases last with
    | none => simp [hselect, firstPage]
    | some r => cases h : decodePageToken (tokenOf r) <;> simp [h, hselect, firstPage]

theorem ends_iff (hids : (rows.map (·.runID)).Nodup) {read rest : List GCRun} {r : GCRun}
    (hsplit : ordered sortKey (rows.filter (matching ilike f)) = read ++ r :: rest) :
    (∃ s, decodePageToken (tokenOf r) = some s ∧ ∀ x ∈ rows.filter (matching ilike f),
      behind (some s) x = true ↔ sortKey r < sortKey x) ↔ EndsPage r rest := by
  have hfound (h : ∀ t ∈ r.completedAt, 1970 < year t ∧ year t ≤ 9999) :
      ∃ s, decodePageToken (tokenOf r) = some s ∧ ∀ x ∈ rows.filter (matching ilike f),
        behind (some s) x = true ↔ sortKey r < sortKey x :=
    ⟨_, decode_tokenOf h, fun x _ => behind_iff _ _ x⟩
  unfold EndsPage
  cases hc : r.completedAt with
  | none => exact iff_of_true (hfound (by simp [hc])) trivial
  | some t =>
    dsimp only
    split_ifs with hlow
    · have hzero : t ≠ 0 := fun h => absurd (h ▸ hlow) (by decide)
      by_cases hhigh : year t ≤ 9999
      · exact iff_of_true (hfound (by simp [hc, hlow, hhigh])) hhigh
      · refine iff_of_false ?_ hhigh
        simp [tokenOf, encodePageToken, decodePageToken, hc, hlow, hzero, hhigh]
    · have hdecode : decodePageToken (tokenOf r) = some (none, r.runID) := by
        simp [tokenOf, encodePageToken, decodePageToken, hc, hlow]
      -- a run without an end is behind every other
      have hbehind : ∀ x, behind (some (none, r.runID)) x = true ↔
          x.completedAt = none ∧ r.runID < x.runID := by simp [behind]
      have hlast : ∀ x : GCRun, x.completedAt = none → sortKey r < sortKey x := fun x hx => by
        simp [sortKey, hc, hx, Prod.Lex.toLex_lt_toLex]
      simp only [hdecode, Option.some.injEq, exists_eq_left', hbehind,
        mem_behind_iff (nodup_sortKey hids) hsplit]
      exact ⟨fun h x hx => (h x hx.1).mpr hx.2,
        fun h x hx => ⟨fun hnull => hlast x hnull.1, fun hlt => h x ⟨hx, hlt⟩⟩⟩

/-- **When the pages are exact**: when each full page ends with a run that its token can name. -/
theorem run_history_exact_iff (ilike : String → String → Bool) (rows : GCRuns)
    (f : ListRunsFilters) (limit : Nat) (hlimit : 1 ≤ limit) :
    (∃ out, follow (fun _ => listRuns ilike rows.rows limit f) (out.length + 1) 0 none = some out ∧
      out.Perm (rows.rows.filter (matching ilike f)) ∧
      out.Pairwise fun a b => sortKey a < sortKey b) ↔
      PageEnds limit limit (ordered sortKey (rows.rows.filter (matching ilike f))) EndsPage := by
  rw [← PageEnds.congr fun _ _ _ => ends_iff rows.nodup]
  simpa using (listRuns_paged rows.nodup hlimit).exact_iff

def completed (runID : Nat) (t : Option Time) : GCRun :=
  { newRun runID (.sweep .full) none none "cron" 0 with completedAt := t }

def june70 : Time := epoch + 151 * 86400000000000

def june71 : Time := june70 + 365 * 86400000000000

theorem two_runs_listed :
    ∃ out, follow (fun _ => listRuns (fun _ _ => true) [completed 2 none, completed 1 (some june71)]
        1 {}) (out.length + 1) 0 none = some out ∧
      out.Perm [completed 2 none, completed 1 (some june71)] ∧
      out.Pairwise fun a b => sortKey a < sortKey b := by
  refine (run_history_exact_iff (fun _ _ => true)
    ⟨[completed 2 none, completed 1 (some june71)], by decide⟩ {} 1 le_rfl).mpr ?_
  have hends : ∀ r ∈ [completed 2 none, completed 1 (some june71)], ∀ rest, EndsPage r rest := by
    have hyear : 1970 < year june71 ∧ year june71 ≤ 9999 := by decide
    simp [EndsPage, completed, hyear]
  intro read r rest hsplit _ _
  exact hends r (mem_of_split hsplit mem_cons_self) rest

theorem early_run_lost :
    follow (fun _ => listRuns (fun _ _ => true)
        [completed 1 (some june70), completed 2 (some epoch)] 1 {}) 3 0 none =
      some [completed 1 (some june70)] := by
  decide

end OciJanus.Gc.RunHistory
