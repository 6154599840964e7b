import Mathlib.Algebra.BigOperators.Group.Finset.Basic
import OciJanus.Verified.Keyset

/-!
# Tenant analytics

Instants are nanoseconds since 1970, the events those of one tenant and one action. In a second
that is a bucket boundary the window ends where the second begins.
-/

namespace OciJanus.Audit.Analytics

open Verified.Keyset List

def second : Int := 1000000000

def unix (t : Int) : Int := t / second

def maxAnalyticsRangeSecs : Int := 90 * 24 * 3600

def minAnalyticsBucketSecs : Int := 60

def maxAnalyticsBuckets : Int := 365

/-- `date_bin` of PostgreSQL. -/
def dateBin (w t origin : Int) : Int := origin + (t - origin) / w * w

structure Row where
  bucketStart : Int
  count : Nat

structure Response where
  buckets : List Row
  total : Nat
  (rangeStart rangeEnd : Int)

def bins (events : List Int) (rangeStart rangeEnd bucketSecs : Int) : List Int :=
  (events.filter fun t => rangeStart ≤ t ∧ t < rangeEnd).map fun t =>
    dateBin (bucketSecs * second) t rangeStart

/-- The query of the repository: grouped by bin, in the order of the bins. -/
def queryRows (events : List Int) (rangeStart rangeEnd bucketSecs : Int) : List Row :=
  let bins := bins events rangeStart rangeEnd bucketSecs
  (ordered id bins.dedup).map fun b => ⟨b, bins.count b⟩

def total (rows : List Row) : Nat := rows.foldl (fun acc r => acc + r.count) 0

def clamp (rangeSecs : Int) : Int :=
  if maxAnalyticsRangeSecs < rangeSecs then maxAnalyticsRangeSecs else rangeSecs

/-- `int64` division truncates, so the window of an instant before 1970 ends too late. -/
def rangeEndOf (now bucketSecs : Int) : Int :=
  (unix now + bucketSecs - 1).tdiv bucketSecs * bucketSecs * second

def respond (now : Int) (events : List Int) (range bucketSecs : Int) : Response :=
  let rangeEnd := rangeEndOf now bucketSecs
  let rangeStart := rangeEnd - range * second
  let rows := queryRows events rangeStart rangeEnd bucketSecs
  ⟨rows, total rows, rangeStart, rangeEnd⟩

def getAnalytics (now : Int) (events : List Int) (rangeSecs bucketSecs : Int) :
    Except String Response :=
  let range := clamp rangeSecs
  if rangeSecs ≤ 0 then .error "range_secs must be positive"
  else if bucketSecs < minAnalyticsBucketSecs then .error "bucket_secs below minimum (60)"
  else if range < bucketSecs then .error "bucket_secs greater than range_secs"
  else if range % bucketSecs ≠ 0 then .error "range_secs must be a multiple of bucket_secs"
  else if maxAnalyticsBuckets < range / bucketSecs then .error "too many buckets requested"
  else .ok (respond now events range bucketSecs)

/-- The starts of the buckets are distinct seconds, so a row finds at most one. -/
def addRow (grid : List Row) (row : Row) : List Row :=
  grid.map fun b =>
    if unix b.bucketStart = unix row.bucketStart then { b with count := row.count } else b

def buildAnalyticsResponse (bucketSecs : Int) (numBuckets : Nat) (resp : Response) : List Row :=
  let grid := (List.range numBuckets).map fun i : Nat =>
    Row.mk (resp.rangeStart + i * (bucketSecs * second)) 0
  resp.buckets.foldl addRow grid

section Grid

variable {start w : Int}

def starts (start w : Int) (n : Nat) : List Int := (List.range n).map fun i : Nat => start + i * w

theorem starts_nodup (hw : 0 < w) (n : Nat) : (starts start w n).Nodup := by
  refine List.Nodup.map (fun i j h => ?_) nodup_range
  have hmul : (i : Int) * w = j * w := by simpa using h
  exact_mod_cast Int.eq_of_mul_eq_mul_right (Int.ne_of_gt hw) hmul

theorem dateBin_eq_iff (hw : 0 < w) {t i : Int} :
    dateBin w t start = start + i * w ↔ start + i * w ≤ t ∧ t < start + i * w + w := by
  have hdiv : (t - start) / w = i ↔ i * w ≤ t - start ∧ t - start < (i + 1) * w := by
    rw [← Int.le_ediv_iff_mul_le hw, ← Int.ediv_lt_iff_lt_mul hw]
    omega
  have hcancel : dateBin w t start = start + i * w ↔ (t - start) / w = i := by
    unfold dateBin
    constructor
    · intro h
      exact Int.eq_of_mul_eq_mul_right (Int.ne_of_gt hw) (by omega)
    · intro h
      rw [h]
  rw [hcancel, hdiv, Int.add_mul, Int.one_mul]
  omega

theorem dateBin_mem_starts (hw : 0 < w) {n : Nat} {t : Int} (hlow : start ≤ t)
    (hhigh : t < start + n * w) : dateBin w t start ∈ starts start w n := by
  have hnonneg : 0 ≤ (t - start) / w := Int.ediv_nonneg (by omega) hw.le
  have hlt : (t - start) / w < n := (Int.ediv_lt_iff_lt_mul hw).mpr (by omega)
  refine mem_map.mpr ⟨((t - start) / w).toNat, mem_range.mpr (by omega), ?_⟩
  rw [Int.toNat_of_nonneg hnonneg, dateBin]

theorem mem_starts_iff_dateBin (hw : 0 < w) {n : Nat} {t s : Int} (hs : s ∈ starts start w n) :
    dateBin w t start = s ↔ s ≤ t ∧ t < s + w := by
  obtain ⟨i, -, rfl⟩ := mem_map.mp hs
  exact dateBin_eq_iff hw

theorem foldl_addRow {times : List Int} {f : Int → Nat} (keys : List Int)
    (hunix : ∀ k ∈ keys, ∀ t ∈ times, unix t = unix k → t = k) (g : Int → Nat) :
    (keys.map fun k => Row.mk k (f k)).foldl addRow (times.map fun t => Row.mk t (g t)) =
      times.map fun t => Row.mk t (if t ∈ keys then f t else g t) := by
  induction keys generalizing g with
  | nil => simp
  | cons k keys ih =>
    have hstep : addRow (times.map fun t => Row.mk t (g t)) ⟨k, f k⟩ =
        times.map fun t => Row.mk t (if t = k then f t else g t) := by
      rw [addRow, map_map]
      refine map_congr_left fun t ht => ?_
      by_cases htk : t = k
      · simp [htk]
      · have hne : unix t ≠ unix k := fun h => htk (hunix k (by simp) t ht h)
        simp [htk, hne]
    rw [map_cons, foldl_cons, hstep,
      ih (fun x hx => hunix x (mem_cons_of_mem k hx))]
    refine map_congr_left fun t _ => ?_
    by_cases hmem : t ∈ keys <;> by_cases htk : t = k <;> simp [hmem, htk]

theorem total_count {keys bins : List Int} (hnodup : keys.Nodup) (hall : ∀ b ∈ bins, b ∈ keys) :
    total (keys.map fun k => Row.mk k (bins.count k)) = bins.length := by
  have hsum := Multiset.sum_count_eq_card (s := keys.toFinset) (m := (bins : Multiset Int))
    (by simpa using hall)
  rw [sum_toFinset _ hnodup] at hsum
  have hfold (rows : List Row) : total rows = (rows.map (·.count)).sum := by
    rw [total, sum_eq_foldl, foldl_map]
  rw [hfold, map_map]
  simpa [Function.comp_def] using hsum

end Grid

/-- What the window, the total and the grid of `registry-management` owe to the events. -/
structure Exact (now : Int) (events : List Int) (rangeSecs bucketSecs : Int) (resp : Response)
    (grid : List Row) : Prop where
  width : resp.rangeEnd - resp.rangeStart = rangeSecs * second
  contains_now : resp.rangeStart ≤ now ∧ now < resp.rangeEnd
  recent : ∀ t ∈ events, now - (rangeSecs - bucketSecs) * second ≤ t →
    resp.rangeStart ≤ t ∧ t < resp.rangeEnd
  counted : resp.total =
    (events.filter fun t => resp.rangeStart ≤ t ∧ t < resp.rangeEnd).length
  one_bucket : ∀ t ∈ events, resp.rangeStart ≤ t → t < resp.rangeEnd →
    grid.countP (fun b => b.bucketStart ≤ t ∧ t < b.bucketStart + bucketSecs * second) = 1
  bucket : ∀ b ∈ grid, b.count = (events.filter fun t =>
    (resp.rangeStart ≤ t ∧ t < resp.rangeEnd) ∧
      (b.bucketStart ≤ t ∧ t < b.bucketStart + bucketSecs * second)).length
  sum : total grid = resp.total

section Cells

variable {events : List Int} {bucketSecs start e : Int} {n : Nat}

theorem mem_bins_of_mem_keys {l : List Int} {k : Int} : k ∈ ordered id l.dedup ↔ k ∈ l :=
  (ordered_perm _ _).mem_iff.trans mem_dedup

theorem length_bins : (bins events start e bucketSecs).length =
    (events.filter fun t => start ≤ t ∧ t < e).length := length_map _

theorem total_queryRows : total (queryRows events start e bucketSecs) =
    (events.filter fun t => start ≤ t ∧ t < e).length := by
  rw [queryRows, total_count, length_bins]
  · exact (ordered_perm _ _).nodup_iff.mpr (nodup_dedup _)
  · exact fun b hb => mem_bins_of_mem_keys.mpr hb

variable (hw : 0 < bucketSecs * second)
include hw

theorem count_bins {s : Int} (hs : s ∈ starts start (bucketSecs * second) n) :
    (bins events start e bucketSecs).count s = (events.filter fun t =>
      (start ≤ t ∧ t < e) ∧ (s ≤ t ∧ t < s + bucketSecs * second)).length := by
  rw [bins, List.count, countP_map, countP_eq_length_filter, filter_filter]
  refine congrArg List.length (filter_congr fun t _ => ?_)
  rw [Bool.eq_iff_iff]
  simp [← mem_starts_iff_dateBin hw hs, and_comm]

variable (hend : e = start + n * (bucketSecs * second))
include hend

theorem mem_starts_of_mem_bins :
    ∀ b ∈ bins events start e bucketSecs, b ∈ starts start (bucketSecs * second) n := by
  intro b hb
  obtain ⟨t, ht, rfl⟩ := mem_map.mp hb
  have hwin : start ≤ t ∧ t < e := by simpa using (mem_filter.mp ht).2
  exact dateBin_mem_starts hw hwin.1 (by omega)

theorem countP_starts {t : Int} (hlow : start ≤ t) (hhigh : t < e) :
    (starts start (bucketSecs * second) n).countP
      (fun s => s ≤ t ∧ t < s + bucketSecs * second) = 1 := by
  have hcount := count_eq_one_of_mem (starts_nodup hw n)
    (dateBin_mem_starts hw hlow (show t < start + n * (bucketSecs * second) by omega))
  rw [← hcount, List.count]
  refine countP_congr fun s hs => ?_
  simp only [decide_eq_true_eq, beq_iff_eq]
  rw [← mem_starts_iff_dateBin hw hs, eq_comm]

end Cells

section Window

variable {now rangeSecs bucketSecs : Int} {events : List Int}

theorem rangeEnd_next (hbucket : 60 ≤ bucketSecs) (hnow : -bucketSecs < unix now) :
    ∃ e, rangeEndOf now bucketSecs = e * second ∧ unix now ≤ e ∧ e < unix now + bucketSecs ∧
      (e = unix now ↔ unix now % bucketSecs = 0) := by
  refine ⟨(unix now + bucketSecs - 1) / bucketSecs * bucketSecs, ?_, ?_⟩
  · rw [rangeEndOf, Int.tdiv_eq_ediv_of_nonneg (by omega)]
  · have hdiv := Int.mul_ediv_add_emod (unix now + bucketSecs - 1) bucketSecs
    have hlt := Int.emod_lt_of_pos (unix now + bucketSecs - 1) (show 0 < bucketSecs by omega)
    have hnonneg := Int.emod_nonneg (unix now + bucketSecs - 1) (show bucketSecs ≠ 0 by omega)
    rw [Int.mul_comm] at hdiv
    refine ⟨by omega, by omega, fun h => ?_, fun h => ?_⟩
    · exact Int.emod_eq_zero_of_dvd ⟨_, h.symm.trans (Int.mul_comm _ _)⟩
    · obtain ⟨k, hk⟩ := Int.dvd_of_emod_eq_zero h
      have hfloor : (unix now + bucketSecs - 1) / bucketSecs = k := by
        rw [hk, Int.add_sub_assoc, Int.add_comm, Int.add_mul_ediv_left _ _ (by omega),
          Int.ediv_eq_zero_of_lt (by omega) (by omega), Int.zero_add]
      rw [hfloor, hk, Int.mul_comm]

/-- So early the division rounds up twice. -/
theorem rangeEnd_late (hbucket : 60 ≤ bucketSecs) (hnow : unix now ≤ -bucketSecs) :
    ∃ e, rangeEndOf now bucketSecs = e * second ∧ unix now < e := by
  refine ⟨(unix now + bucketSecs - 1).tdiv bucketSecs * bucketSecs, rfl, ?_⟩
  have hdiv := Int.mul_tdiv_add_tmod (unix now + bucketSecs - 1) bucketSecs
  have hmod := Int.tmod_nonneg bucketSecs (show 0 ≤ -(unix now + bucketSecs - 1) by omega)
  rw [Int.neg_tmod] at hmod
  rw [Int.mul_comm] at hdiv
  omega

theorem eq_of_unix_eq {s t : Int} (hs : second ∣ s) (ht : second ∣ t) (h : unix s = unix t) :
    s = t := by
  rw [← Int.ediv_mul_cancel hs, ← Int.ediv_mul_cancel ht]
  exact congrArg (· * second) h

theorem buildAnalyticsResponse_eq {start e : Int} (n tot : Nat) (hstart : second ∣ start) :
    buildAnalyticsResponse bucketSecs n ⟨queryRows events start e bucketSecs, tot, start, e⟩ =
      (starts start (bucketSecs * second) n).map fun t =>
        Row.mk t ((bins events start e bucketSecs).count t) := by
  have hsecond (i : Int) : second ∣ start + i * (bucketSecs * second) :=
    Int.dvd_add hstart (Int.mul_assoc i bucketSecs second ▸ Int.dvd_mul_left _ _)
  have hgrid : ((List.range n).map fun i : Nat =>
      Row.mk (start + i * (bucketSecs * second)) 0) =
      (starts start (bucketSecs * second) n).map fun t => Row.mk t ((fun _ => 0) t) := by
    rw [starts, map_map]
    rfl
  rw [buildAnalyticsResponse, queryRows]
  dsimp only
  rw [hgrid, foldl_addRow]
  · refine map_congr_left fun t _ => ?_
    by_cases hmem : t ∈ bins events start e bucketSecs
    · simp [mem_bins_of_mem_keys, hmem]
    · simp [mem_bins_of_mem_keys, hmem, count_eq_zero_of_not_mem]
  · intro k hk t ht
    obtain ⟨i, -, rfl⟩ := mem_map.mp ht
    obtain ⟨x, -, rfl⟩ := mem_map.mp (mem_bins_of_mem_keys.mp hk)
    exact eq_of_unix_eq (hsecond i) (hsecond _)

theorem getAnalytics_ok {resp : Response}
    (h : getAnalytics now events rangeSecs bucketSecs = .ok resp) :
    60 ≤ bucketSecs ∧ bucketSecs ≤ clamp rangeSecs ∧ clamp rangeSecs % bucketSecs = 0 ∧
      resp = respond now events (clamp rangeSecs) bucketSecs := by
  unfold getAnalytics at h
  dsimp only at h
  split_ifs at h with h1 h2 h3 h4 h5
  cases h
  exact ⟨not_lt.mp h2, not_lt.mp h3, not_not.mp h4, rfl⟩

/-- The window decides: what is counted in it is counted right. -/
theorem exact_iff_window {resp : Response}
    (hresp : getAnalytics now events rangeSecs bucketSecs = .ok resp) :
    Exact now events rangeSecs bucketSecs resp
        (buildAnalyticsResponse bucketSecs (rangeSecs / bucketSecs).toNat resp) ↔
      rangeSecs ≤ maxAnalyticsRangeSecs ∧ now < rangeEndOf now bucketSecs ∧
        rangeEndOf now bucketSecs - rangeSecs * second ≤ now ∧
        ∀ t ∈ events, now - (rangeSecs - bucketSecs) * second ≤ t →
          rangeEndOf now bucketSecs - rangeSecs * second ≤ t ∧ t < rangeEndOf now bucketSecs := by
  obtain ⟨hbucket, hle, hmod, rfl⟩ := getAnalytics_ok hresp
  have hclamp : rangeSecs ≤ maxAnalyticsRangeSecs ↔ clamp rangeSecs = rangeSecs := by
    unfold clamp
    split_ifs <;> omega
  rw [hclamp]
  have hE : second ∣ rangeEndOf now bucketSecs := Int.dvd_mul_left _ _
  unfold respond
  dsimp only
  generalize rangeEndOf now bucketSecs = E at *
  constructor
  · intro h
    have hwidth : clamp rangeSecs = rangeSecs := by
      have hspan : E - (E - clamp rangeSecs * second) = rangeSecs * second := h.width
      unfold second at hspan
      omega
    obtain ⟨hlow, hhigh⟩ := h.contains_now
    have hrecent := h.recent
    rw [hwidth] at hlow hrecent
    exact ⟨hwidth, hhigh, hlow, hrecent⟩
  · rintro ⟨hwidth, hhigh, hlow, hrecent⟩
    rw [hwidth] at hle hmod ⊢
    generalize hS : E - rangeSecs * second = S at *
    have hwpos : 0 < bucketSecs * second := by
      unfold second
      omega
    have hstart : second ∣ S := hS ▸ Int.dvd_sub hE (Int.dvd_mul_left _ _)
    generalize hn : (rangeSecs / bucketSecs).toNat = n
    have hcells : E = S + n * (bucketSecs * second) := by
      have hnonneg : 0 ≤ rangeSecs / bucketSecs := Int.ediv_nonneg (by omega) (by omega)
      rw [← hn, Int.toNat_of_nonneg hnonneg, ← Int.mul_assoc,
        Int.ediv_mul_cancel (Int.dvd_of_emod_eq_zero hmod)]
      omega
    rw [buildAnalyticsResponse_eq n _ hstart]
    refine ⟨by dsimp only; omega, ⟨hlow, hhigh⟩, hrecent, total_queryRows, ?_, ?_, ?_⟩
    · intro t _ hlow' hhigh'
      rw [countP_map]
      exact countP_starts hwpos hcells hlow' hhigh'
    · intro b hb
      obtain ⟨s, hs, rfl⟩ := mem_map.mp hb
      exact count_bins hwpos hs
    · rw [total_count (starts_nodup hwpos n) (mem_starts_of_mem_bins hwpos hcells), length_bins,
        total_queryRows]

/-- **The series are exact** if and only if the range is not clamped and the second is no boundary;
a bucket and more before 1970, if neither now nor a recent event precedes the window. -/
theorem analytics_exact_iff (now : Int) (events : List Int) (rangeSecs bucketSecs : Int)
    (resp : Response) (hpast : ∀ t ∈ events, t ≤ now)
    (hresp : getAnalytics now events rangeSecs bucketSecs = .ok resp) :
    Exact now events rangeSecs bucketSecs resp
        (buildAnalyticsResponse bucketSecs (rangeSecs / bucketSecs).toNat resp) ↔
      rangeSecs ≤ maxAnalyticsRangeSecs ∧
        if -bucketSecs < unix now then unix now % bucketSecs ≠ 0
        else ∀ t ∈ now :: events, now - (rangeSecs - bucketSecs) * second ≤ t →
          rangeEndOf now bucketSecs - rangeSecs * second ≤ t := by
  rw [exact_iff_window hresp]
  obtain ⟨hbucket, hle, -, -⟩ := getAnalytics_ok hresp
  refine and_congr_right fun hrange => ?_
  rw [clamp, if_neg (not_lt.mpr hrange)] at hle
  have hunix : unix now * second ≤ now ∧ now < unix now * second + second := by
    unfold unix second
    omega
  split_ifs with hnow
  · obtain ⟨e, hend, hlow, hhigh, hboundary⟩ := rangeEnd_next hbucket hnow
    rw [hend, ne_eq, ← hboundary]
    unfold second at *
    constructor
    · omega
    · intro hne
      refine ⟨by omega, by omega, fun t ht hrecent => ?_⟩
      have := hpast t ht
      omega
  · obtain ⟨e, hend, hlow⟩ := rangeEnd_late hbucket (not_lt.mp hnow)
    rw [hend, forall_mem_cons]
    have hhigh : now < e * second := by
      unfold second at *
      omega
    have hself : now - (rangeSecs - bucketSecs) * second ≤ now := by
      unfold second
      omega
    constructor
    · rintro ⟨-, hstart, hrecent⟩
      exact ⟨fun _ => hstart, fun t ht h => (hrecent t ht h).1⟩
    · rintro ⟨hstart, hrecent⟩
      exact ⟨hhigh, hstart hself, fun t ht h => ⟨hrecent t ht h, (hpast t ht).trans_lt hhigh⟩⟩

theorem quarter_past_exact :
    ∃ resp, getAnalytics (900 * second) [899 * second] 7200 3600 = .ok resp ∧
      Exact (900 * second) [899 * second] 7200 3600 resp (buildAnalyticsResponse 3600 2 resp) := by
  refine ⟨_, rfl, (analytics_exact_iff (900 * second) [899 * second] 7200 3600 _ ?_ rfl).mpr
    (by decide)⟩
  intro t ht
  rw [mem_singleton.mp ht]
  decide

theorem full_hour_loses_now :
    ∃ resp, getAnalytics (3600 * second) [3600 * second] 7200 3600 = .ok resp ∧ resp.total = 0 ∧
      resp.rangeEnd = 3600 * second ∧
      ¬ Exact (3600 * second) [3600 * second] 7200 3600 resp
        (buildAnalyticsResponse 3600 2 resp) := by
  refine ⟨_, rfl, by decide, by decide, fun h => ?_⟩
  exact absurd h.contains_now.2 (by decide)

end Window

end OciJanus.Audit.Analytics
