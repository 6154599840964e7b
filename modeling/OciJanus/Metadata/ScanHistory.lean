import OciJanus.Verified.Keyset
import OciJanus.Verified.Rfc3339

/-!
# The pages of the scan history

The clause of the token compares `completed_at` with a time, which a NULL is neither before nor
equal to.
-/

namespace OciJanus.Metadata.ScanHistory

open Verified.Keyset Verified.Rfc3339 List

structure Scan where
  id : Nat
  tenantID : String
  completedAt : Option Time
  deriving DecidableEq

structure Cursor where
  completedAt : Time
  scanID : Nat

def cursorOf (r : Scan) : Cursor := ⟨r.completedAt.getD 0, r.id⟩

abbrev Readable (t : Time) : Prop :=
  0 ≤ (yearDay (t / 86400000000000)).year ∧ (yearDay (t / 86400000000000)).year ≤ 9999

def decodeScanHistoryCursor (c : Cursor) : Option Cursor :=
  if Readable c.completedAt then some c else none

def clampLimit (limit : Int) : Nat :=
  if limit ≤ 0 then 50 else if 200 < limit then 200 else limit.toNat

def sortKey (r : Scan) : Bool ×ₗ Int ×ₗ Int :=
  toLex (r.completedAt.isNone, toLex (-r.completedAt.getD 0, -r.id))

def behind (cursor : Option Cursor) (r : Scan) : Bool :=
  cursor.all fun c => r.completedAt.any fun t => t < c.completedAt ||
    t = c.completedAt && r.id < c.scanID

section
variable (tenantID : String) (since : Time) (rows : List Scan) (limit : Int)

def listed (r : Scan) : Bool := r.tenantID == tenantID && r.completedAt.all (since ≤ ·)

def listScanHistory (pageToken : Option Cursor) : Option (List Scan × Option Cursor) := do
  let cursor ← pageToken.mapM decodeScanHistoryCursor
  let limit := clampLimit limit
  let out := (ordered sortKey (rows.filter fun r => behind cursor r &&
    listed tenantID since r)).take (limit + 1)
  return (out.take limit,
    if limit < out.length then (out.take limit).getLast?.map cursorOf else none)

end

variable {tenantID : String} {since : Time} {rows : List Scan} {limit : Int}

theorem clampLimit_pos (limit : Int) : 0 < clampLimit limit := by
  unfold clampLimit
  split_ifs <;> omega

theorem nodup_sortKey (hids : (rows.map (·.id)).Nodup) (p : Scan → Bool) :
    ((rows.filter p).map sortKey).Nodup := by
  have hkeys : ((rows.map sortKey).map fun k => (-(ofLex (ofLex k).2).2).toNat).Nodup := by
    simpa [Function.comp_def, sortKey] using hids
  exact hkeys.of_map.sublist (filter_sublist.map _)

theorem behind_iff {r : Scan} (hr : r.completedAt ≠ none) (c : Cursor) :
    behind (some c) r = true ↔
      toLex (false, toLex (-c.completedAt, -(c.scanID : Int))) < sortKey r := by
  obtain ⟨u, hu⟩ := Option.ne_none_iff_exists'.mp hr
  simp [behind, sortKey, hu, Prod.Lex.toLex_lt_toLex, eq_comm (a := u)]

/-- The listed scans, newest first, the unfinished ones last. -/
abbrev history (tenantID : String) (since : Time) (rows : List Scan) : List Scan :=
  ordered sortKey (rows.filter (listed tenantID since))

theorem listScanHistory_eq (hids : (rows.map (·.id)).Nodup) (last : Option Scan) :
    listScanHistory tenantID since rows limit (last.map cursorOf) =
      (remaining sortKey (rows.filter (listed tenantID since))
        (fun r => decodeScanHistoryCursor (cursorOf r)) behind last).map
        (firstPage cursorOf (clampLimit limit) (clampLimit limit + 1)) := by
  simp only [remaining, ← ordered_filter (nodup_sortKey hids _), filter_filter]
  unfold listScanHistory
  cases last with
  | none => simp [firstPage, take_take, Nat.succ_le_iff]
  | some r =>
    cases h : decodeScanHistoryCursor (cursorOf r) <;>
      simp [h, firstPage, take_take, Nat.succ_le_iff]

theorem listScanHistory_paged (hids : (rows.map (·.id)).Nodup)
    (hdone : ∀ x ∈ rows.filter (listed tenantID since), x.completedAt ≠ none) :
    Paged (fun _ => listScanHistory tenantID since rows limit) id sortKey
      (rows.filter (listed tenantID since)) cursorOf
      (fun r => decodeScanHistoryCursor (cursorOf r)) behind (clampLimit limit)
      (clampLimit limit + 1) where
  pos := clampLimit_pos limit
  bounds := ⟨Nat.le_succ _, le_rfl⟩
  nodup := nodup_sortKey hids _
  all _ := rfl
  mono cursor a ha b hb hab h := by
    cases cursor with
    | none => rfl
    | some c => exact (behind_iff (hdone b hb) c).mpr (((behind_iff (hdone a ha) c).mp h).trans hab)
  page _ last := by
    rw [← listScanHistory_eq hids last]
    simp only [map_id, Option.map_id', Prod.mk.eta]

/-- A call with a token lists finished scans only. -/
theorem done_of_token {token : Cursor} {out : List Scan} {next : Option Cursor}
    (h : listScanHistory tenantID since rows limit (some token) = some (out, next)) :
    ∀ x ∈ out, x.completedAt ≠ none := by
  unfold listScanHistory at h
  cases hcursor : decodeScanHistoryCursor token with
  | none => simp [hcursor] at h
  | some c =>
    simp [hcursor, take_take] at h
    obtain ⟨rfl, -⟩ := h
    intro x hx hnone
    have hx := (ordered_perm sortKey _).mem_iff.mp (mem_of_mem_take hx)
    simp [behind, hnone] at hx

/-- If what is behind the first page is finished, then all is: the unfinished scans come last. -/
theorem done_of_drop {n : Nat} (hids : (rows.map (·.id)).Nodup)
    (hlong : n < (history tenantID since rows).length)
    (h : ∀ x ∈ (history tenantID since rows).drop n, x.completedAt ≠ none) :
    ∀ x ∈ history tenantID since rows, x.completedAt ≠ none := by
  have hsorted := ordered_strict (nodup_sortKey hids (listed tenantID since))
  obtain ⟨y, hy⟩ := exists_mem_of_ne_nil _ fun hnil =>
    absurd (drop_eq_nil_iff.mp hnil) (Nat.not_le.mpr hlong)
  intro x hx hnone
  rw [← take_append_drop n (history tenantID since rows)] at hx
  rcases mem_append.mp hx with hread | hrest
  · have hlt : sortKey x < sortKey y := by
      rw [← take_append_drop n (ordered _ _)] at hsorted
      exact (pairwise_append.mp hsorted).2.2 x hread y hy
    obtain ⟨u, hu⟩ := Option.ne_none_iff_exists'.mp (h y hy)
    have hbool : ¬ true < false := by decide
    simp [sortKey, hnone, hu, Prod.Lex.toLex_lt_toLex, hbool] at hlt
  · exact h x hrest hnone

/-- **When the pages are exact**: when each page that another follows ends with a scan whose time
can be read back, and no scan behind it is unfinished. -/
theorem scan_history_exact_iff (tenantID : String) (since : Time) (rows : List Scan)
    (hids : (rows.map (·.id)).Nodup) (limit : Int) :
    (∃ out, follow (fun _ => listScanHistory tenantID since rows limit) (out.length + 1) 0 none =
        some out ∧
      out.Perm (rows.filter (listed tenantID since)) ∧
      out.Pairwise fun a b => sortKey a < sortKey b) ↔
      PageEnds (clampLimit limit) (clampLimit limit + 1) (history tenantID since rows)
        fun r rest => (∃ t ∈ r.completedAt, Readable t) ∧ ∀ x ∈ rest, x.completedAt ≠ none := by
  have hkeys := nodup_sortKey hids (listed tenantID since)
  by_cases hdone : ∀ x ∈ rows.filter (listed tenantID since), x.completedAt ≠ none
  · refine Iff.trans (by simpa only [map_id] using (listScanHistory_paged hids hdone).exact_iff)
      (PageEnds.congr fun read r rest hsplit => ?_)
    have hr := hdone r (mem_of_split hsplit mem_cons_self)
    have hrest : ∀ x ∈ rest, x.completedAt ≠ none := fun x hx =>
      hdone x (mem_of_split hsplit (mem_cons_of_mem r hx))
    obtain ⟨t, ht⟩ := Option.ne_none_iff_exists'.mp hr
    rw [and_iff_left hrest]
    constructor
    · rintro ⟨s, hs, -⟩
      refine ⟨t, ht, ?_⟩
      by_contra hunread
      simp [decodeScanHistoryCursor, cursorOf, ht, hunread] at hs
    · rintro ⟨t', ht', hreadable⟩
      refine ⟨cursorOf r, ?_, fun x hx => ?_⟩
      · simp [decodeScanHistoryCursor, cursorOf, Option.mem_def.mp ht', hreadable]
      · rw [behind_iff (hdone x hx)]
        simp [cursorOf, sortKey, ht]
  · have hopen : ¬ ∀ x ∈ history tenantID since rows, x.completedAt ≠ none := fun h =>
      hdone fun x hx => h x ((ordered_perm sortKey _).mem_iff.mpr hx)
    have hfirst : listScanHistory tenantID since rows limit none = some (firstPage cursorOf
        (clampLimit limit) (clampLimit limit + 1) (history tenantID since rows)) := by
      have hall : behind none = fun _ => true := rfl
      simpa [remaining, hall] using listScanHistory_eq hids none
    by_cases hlong : clampLimit limit < (history tenantID since rows).length
    · obtain ⟨k, hk, hcut⟩ := pageEnds_cut (clampLimit_pos limit) (Nat.le_succ _) hlong
        fun r rest : _ => (∃ t ∈ r.completedAt, Readable t) ∧ ∀ x ∈ rest, x.completedAt ≠ none
      refine iff_of_false ?_ fun h => hopen (done_of_drop hids hlong (hcut.mp h).1.2)
      rintro ⟨out, hout, hsorted⟩
      obtain rfl := (eq_ordered_iff hkeys).mp hsorted
      rw [follow, hfirst, firstPage, if_pos (Nat.succ_le_of_lt hlong), hk] at hout
      obtain ⟨later, hlater, heq⟩ := Option.map_eq_some_iff.mp hout
      obtain rfl := append_cancel_left (heq.trans (take_append_drop (clampLimit limit) _).symm)
      exact hopen (done_of_drop hids hlong
        (follow_forall (fun _ _ _ _ => done_of_token) hlater))
    · have hlen := Nat.not_lt.mp hlong
      refine iff_of_true ⟨_, ?_, (eq_ordered_iff hkeys).mpr rfl⟩ (pageEnds_of_lt (by omega) _)
      rw [follow, hfirst, firstPage, if_neg (by omega), take_of_length_le hlen]

def scan (id : Nat) (t : Option Time) : Scan := ⟨id, "t", t⟩

theorem two_scans_listed :
    ∃ out, follow (fun _ => listScanHistory "t" 5 [scan 1 (some 7), scan 2 (some 7)] 1)
        (out.length + 1) 0 none = some out ∧
      out.Perm [scan 1 (some 7), scan 2 (some 7)] ∧
      out.Pairwise fun a b => sortKey a < sortKey b :=
  (scan_history_exact_iff "t" 5 [scan 1 (some 7), scan 2 (some 7)] (by decide) 1).mpr
    fun read r rest hsplit _ _ => by
      have hdone : ∀ x ∈ [scan 1 (some 7), scan 2 (some 7)], ∃ t ∈ x.completedAt, Readable t := by
        decide
      have hr := fun x (hx : x ∈ r :: rest) =>
        hdone x (mem_of_split hsplit hx)
      refine ⟨hr r mem_cons_self, fun x hx hnone => ?_⟩
      obtain ⟨t, ht, -⟩ := hr x (mem_cons_of_mem r hx)
      rw [hnone] at ht
      cases ht

theorem running_scan_lost :
    follow (fun _ => listScanHistory "t" 5 [scan 1 none, scan 2 (some 7)] 1) 3 0 none =
      some [scan 2 (some 7)] := by
  decide

end OciJanus.Metadata.ScanHistory
