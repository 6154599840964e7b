import OciJanus.Scanner.Worker

/-!
# Events of the pull-through cache and the scans they lead to

`covered_iff_backed`: a digest is covered exactly when one of its recent records is of a job that
was accepted and has not failed.
-/

namespace OciJanus.Scanner.CachedImages

open Verified.KeyedTable Verified.Run Scanner.Policy Scanner.Worker List
open Signer.Signatures (CachePopulatedPayload)

section Store

variable {s : ScanStore} {id k : String}

theorem get_create (tenantID manifestDigest repoName : String) :
    (ScanStore.create s id tenantID manifestDigest repoName).get k =
      if id = k then some ⟨id, tenantID, manifestDigest, repoName, .pending, none⟩
      else s.get k := by
  have hfree : (s.remove fun r => r.scanID = id).get id = none := by
    rw [Table.get_remove]
    cases h : s.get id with
    | none => rfl
    | some r => simp [Option.filter_some, Table.key_of_get h]
  unfold ScanStore.create
  rw [Table.get_insertNew hfree]
  show (if id = k then _ else _) = _
  by_cases hk : id = k
  · rw [if_pos hk, if_pos hk]
  · rw [if_neg hk, if_neg hk, Table.get_remove]
    cases h : s.get k with
    | none => rfl
    | some r =>
      have hne : r.scanID ≠ id := fun he => hk (he.symm.trans (Table.key_of_get h))
      simp [Option.filter_some, hne]

theorem get_setRunning_self :
    (ScanStore.setRunning s id).get id = (s.get id).map ScanStore.markRunning :=
  Table.get_modify_self

theorem get_setRunning_ne (hk : k ≠ id) : (ScanStore.setRunning s id).get k = s.get k :=
  Table.get_modify_ne hk

theorem get_setFinished_self (status : Status) (now : Int) :
    (ScanStore.setFinished s id status now).get id =
      (s.get id).map (ScanStore.markFinished status now) :=
  Table.get_modify_self

theorem get_setFinished_ne (status : Status) (now : Int) (hk : k ≠ id) :
    (ScanStore.setFinished s id status now).get k = s.get k :=
  Table.get_modify_ne hk

end Store

def ofID (id : String) (l : List ScanJob) : List ScanJob := l.filter fun j => j.scanID = id

theorem mem_ofID {id : String} {l : List ScanJob} {j : ScanJob} :
    j ∈ ofID id l ↔ j ∈ l ∧ j.scanID = id := by
  simp [ofID]

theorem ofID_append (id : String) (l : List ScanJob) (j : ScanJob) :
    ofID id (l ++ [j]) = if j.scanID = id then ofID id l ++ [j] else ofID id l := by
  by_cases h : j.scanID = id <;> simp [ofID, filter_append, h]

theorem ofID_cons (id : String) (l : List ScanJob) (j : ScanJob) :
    ofID id (j :: l) = if j.scanID = id then j :: ofID id l else ofID id l := by
  by_cases h : j.scanID = id <;> simp [ofID, h]

theorem ofID_filter_ne (id id' : String) (l : List ScanJob) :
    ofID id (l.filter fun j => !decide (j.scanID = id')) = if id = id' then [] else ofID id l := by
  unfold ofID
  rw [filter_filter]
  by_cases h : id = id'
  · rw [if_pos h, filter_eq_nil_iff]
    intro j _
    simp [h]
  · rw [if_neg h]
    apply filter_congr
    intro j _
    by_cases hj : j.scanID = id <;> simp [hj, h]

structure View where
  record : Option ScanRecord
  (offered jobs running : List ScanJob)
  (accepted issued : Bool)

def view (s : Pool) (id : String) : View :=
  ⟨s.store.get id, ofID id s.offered, ofID id s.jobs, ofID id s.running,
    decide (id ∈ s.accepted), decide (id ∈ s.issued)⟩

def RecordOf (r : ScanRecord) (j : ScanJob) : Prop :=
  r.tenantID = j.tenantID ∧ r.manifestDigest = j.manifestDigest

inductive Stage : View → Prop
  | unused : Stage ⟨none, [], [], [], false, false⟩
  | offered {r : ScanRecord} {j : ScanJob} (hst : r.status = .pending) (hrec : RecordOf r j) :
      Stage ⟨some r, [j], [], [], false, true⟩
  | refused {r : ScanRecord} (hst : r.status = .pending) :
      Stage ⟨some r, [], [], [], false, true⟩
  | queued {r : ScanRecord} {j : ScanJob} (hst : r.status = .pending) (hrec : RecordOf r j) :
      Stage ⟨some r, [], [j], [], true, true⟩
  | inHand {r : ScanRecord} {j : ScanJob} (hst : r.status = .running) (hrec : RecordOf r j) :
      Stage ⟨some r, [], [], [j], true, true⟩
  | finished {r : ScanRecord} (hst : r.status = .complete ∨ r.status = .failed) :
      Stage ⟨some r, [], [], [], true, true⟩
  | forgotten : Stage ⟨none, [], [], [], true, true⟩

def Wf (s : Pool) : Prop := ∀ id, Stage (view s id)

theorem Wf.fresh (policies : ProxyCacheScanPolicies) (now : Int) : Wf (Pool.fresh policies now) :=
  fun _ => .unused

section Steps

variable {s : Pool}

theorem Wf.of_view {s' : Pool} (h : Wf s) (id : String) (hself : Stage (view s' id))
    (hother : ∀ id', id' ≠ id → view s' id' = view s id') : Wf s' := by
  intro id'
  by_cases hid : id' = id
  · rw [hid]
    exact hself
  · rw [hother id' hid]
    exact h id'

variable {v : View} {j : ScanJob}

theorem Stage.of_not_issued (h : Stage v) (hv : v.issued = false) :
    v = ⟨none, [], [], [], false, false⟩ := by
  cases h with
  | unused => rfl
  | _ => cases hv

theorem Stage.of_offered (h : Stage v) (hj : j ∈ v.offered) :
    ∃ r, v = ⟨some r, [j], [], [], false, true⟩ ∧ r.status = .pending ∧ RecordOf r j := by
  cases h with
  | @offered r j' hst hrec =>
    rw [mem_singleton.mp hj]
    exact ⟨r, rfl, hst, hrec⟩
  | _ => exact absurd hj not_mem_nil

theorem Stage.of_queued (h : Stage v) (hj : j ∈ v.jobs) :
    ∃ r, v = ⟨some r, [], [j], [], true, true⟩ ∧ r.status = .pending ∧ RecordOf r j := by
  cases h with
  | @queued r j' hst hrec =>
    rw [mem_singleton.mp hj]
    exact ⟨r, rfl, hst, hrec⟩
  | _ => exact absurd hj not_mem_nil

theorem Stage.of_inHand (h : Stage v) (hj : j ∈ v.running) :
    ∃ r, v = ⟨some r, [], [], [j], true, true⟩ ∧ r.status = .running ∧ RecordOf r j := by
  cases h with
  | @inHand r j' hst hrec =>
    rw [mem_singleton.mp hj]
    exact ⟨r, rfl, hst, hrec⟩
  | _ => exact absurd hj not_mem_nil

theorem Stage.of_accepted (h : Stage v) {r : ScanRecord} (hr : v.record = some r)
    (hacc : v.accepted = true) :
    (∃ j ∈ v.jobs ++ v.running, RecordOf r j) ∨ r.status = .complete ∨ r.status = .failed := by
  cases h with
  | @queued r' j hst hrec =>
    cases hr
    exact Or.inl ⟨j, by simp, hrec⟩
  | @inHand r' j hst hrec =>
    cases hr
    exact Or.inl ⟨j, by simp, hrec⟩
  | @finished r' hst =>
    cases hr
    exact Or.inr hst
  | forgotten => cases hr
  | _ => cases hacc

theorem Stage.accepted_of_complete (h : Stage v) {r : ScanRecord}
    (hr : v.record = some r) (hst : r.status = .complete) : v.accepted = true := by
  cases h with
  | @offered r' j hst' hrec =>
    cases hr
    simp [hst] at hst'
  | @refused r' hst' =>
    cases hr
    simp [hst] at hst'
  | unused => cases hr
  | _ => rfl

theorem Wf.submit (h : Wf s) (job : ScanJob) : Wf (s.submit job) := by
  unfold Pool.submit
  split_ifs with hnew
  · exact h
  · have hunused := (h job.scanID).of_not_issued (decide_eq_false hnew)
    simp only [view, View.mk.injEq] at hunused
    obtain ⟨_, hoffered, hjobs, hrunning, haccepted, _⟩ := hunused
    apply h.of_view job.scanID
    · have hview := Stage.offered
        (r := ⟨job.scanID, job.tenantID, job.manifestDigest, job.repositoryName, .pending, none⟩)
        (j := job) rfl ⟨rfl, rfl⟩
      simpa [view, get_create, ofID_append, hoffered, hjobs, hrunning, haccepted] using hview
    · intro id hid
      have hne : job.scanID ≠ id := Ne.symm hid
      simp [view, get_create, ofID_append, hne, hid]

theorem Wf.follow (h : Wf s) (d : Decision) : Wf (s.follow d) := by
  cases d with
  | submit job => exact h.submit job
  | done | fail => exact h

theorem Wf.enqueue (h : Wf s) (cfg : Config) (scanID : String) : Wf (s.enqueue cfg scanID) := by
  unfold Pool.enqueue
  cases hoffer : s.offer? scanID with
  | none => exact h
  | some job =>
    have hid : job.scanID = scanID := by simpa using List.find?_some hoffer
    subst hid
    obtain ⟨r, hview, hst, hrec⟩ := (h job.scanID).of_offered
      (mem_ofID.mpr ⟨mem_of_find?_eq_some hoffer, rfl⟩)
    simp only [view, View.mk.injEq] at hview
    obtain ⟨hget, _, hjobs, hrunning, haccepted, hissued⟩ := hview
    by_cases hroom : s.hasRoom cfg = true
    · simp only [hroom, if_true]
      apply h.of_view job.scanID
      · simpa [view, Pool.withdraw, ofID_filter_ne, ofID_append, hget, hjobs, hrunning,
          hissued] using Stage.queued hst hrec
      · intro id hid
        have hne : job.scanID ≠ id := Ne.symm hid
        simp [view, Pool.withdraw, ofID_filter_ne, ofID_append, hne, hid]
    · simp only [hroom]
      apply h.of_view job.scanID
      · simpa [view, Pool.withdraw, ofID_filter_ne, hget, hjobs, hrunning, haccepted,
          hissued] using Stage.refused hst
      · intro id hid
        simp [view, Pool.withdraw, ofID_filter_ne, hid]

theorem Wf.take (h : Wf s) (cfg : Config) : Wf (s.take cfg) := by
  unfold Pool.take
  split
  · exact h
  · rename_i job rest hqueue
    split_ifs with hidle
    · have hmem : job ∈ ofID job.scanID s.jobs := by
        rw [mem_ofID, hqueue]
        exact ⟨mem_cons_self, rfl⟩
      obtain ⟨r, hview, _, hrec⟩ := (h job.scanID).of_queued hmem
      simp only [view, View.mk.injEq] at hview
      obtain ⟨hget, hoffered, hjobs, hrunning, haccepted, hissued⟩ := hview
      rw [hqueue, ofID_cons, if_pos rfl] at hjobs
      have hrest : ofID job.scanID rest = [] := cons_inj_right job |>.mp hjobs
      apply h.of_view job.scanID
      · have hstage := Stage.inHand (r := ScanStore.markRunning r) (j := job) rfl hrec
        simpa [view, ofID_cons, get_setRunning_self, hget, hoffered, hrest, hrunning, haccepted,
          hissued] using hstage
      · intro id hid
        have hne : job.scanID ≠ id := Ne.symm hid
        simp [view, hqueue, ofID_cons, get_setRunning_ne hid, hne]
    · exact h

theorem Wf.finish (h : Wf s) (scanID : String) (ok : Bool) : Wf (s.finish scanID ok) := by
  unfold Pool.finish
  by_cases hrun : scanID ∈ s.running.map (·.scanID)
  · rw [if_pos hrun]
    obtain ⟨job, hjob, rfl⟩ := mem_map.mp hrun
    obtain ⟨r, hview, _, _⟩ := (h job.scanID).of_inHand (mem_ofID.mpr ⟨hjob, rfl⟩)
    simp only [view, View.mk.injEq] at hview
    obtain ⟨hget, hoffered, hjobs, _, haccepted, hissued⟩ := hview
    have hstage : ∀ status, status = .complete ∨ status = .failed →
        Stage ⟨some (ScanStore.markFinished status s.now r), [], [], [], true, true⟩ :=
      fun status hst => .finished hst
    apply h.of_view job.scanID
    · cases ok <;> simp [view, ofID_filter_ne, get_setFinished_self, hget, hoffered, hjobs,
        haccepted, hissued, hstage]
    · intro id hid
      simp [view, ofID_filter_ne, get_setFinished_ne _ _ hid, hid]
  · rw [if_neg hrun]
    exact h

theorem Stage.sweep (h : Stage v) (now maxAge : Int) :
    Stage { v with record := v.record.filter fun r => !r.swept now maxAge } := by
  have hkeep : ∀ r : ScanRecord, r.status = .pending ∨ r.status = .running →
      (some r).filter (fun r => !r.swept now maxAge) = some r := by
    intro r hr
    rcases hr with hr | hr <;> simp [Option.filter_some, ScanRecord.swept, hr]
  cases h with
  | unused => exact .unused
  | @offered r j hst hrec =>
    simp only [hkeep r (Or.inl hst)]
    exact .offered hst hrec
  | @refused r hst =>
    simp only [hkeep r (Or.inl hst)]
    exact .refused hst
  | @queued r j hst hrec =>
    simp only [hkeep r (Or.inl hst)]
    exact .queued hst hrec
  | @inHand r j hst hrec =>
    simp only [hkeep r (Or.inr hst)]
    exact .inHand hst hrec
  | @finished r hst =>
    cases hswept : r.swept now maxAge with
    | true => simpa [Option.filter_some, hswept] using Stage.forgotten
    | false => simpa [Option.filter_some, hswept] using Stage.finished hst
  | forgotten => exact .forgotten

theorem Wf.sweep (h : Wf s) (maxAge : Int) :
    Wf { s with store := Worker.sweep s.store s.now maxAge } := by
  intro id
  have hget : (Worker.sweep s.store s.now maxAge).get id =
      (s.store.get id).filter fun r => !r.swept s.now maxAge := Table.get_remove
  have hstage := (h id).sweep s.now maxAge
  unfold view at hstage ⊢
  rw [hget]
  exact hstage

theorem Wf.step (h : Wf s) (cfg : Config) (a : Action) : Wf (s.step cfg a) := by
  cases a with
  | tick | setProxyCacheScanPolicy => exact h
  | cachePopulated | pushCompleted | scanQueued | triggerScan => exact h.follow _
  | enqueue scanID => exact h.enqueue cfg scanID
  | take => exact h.take cfg
  | finish scanID ok => exact h.finish scanID ok
  | sweep => exact h.sweep _

end Steps

def Covered (s : Pool) (tenantID manifestDigest : String) : Prop :=
  (∃ j ∈ s.jobs ++ s.running, j.tenantID = tenantID ∧ j.manifestDigest = manifestDigest) ∨
    ∃ r ∈ s.store.rows, r.tenantID = tenantID ∧ r.manifestDigest = manifestDigest ∧
      r.status = .complete ∧ r.completedAt.any fun t => s.now - cachePopulatedDedupWindow < t

def Backed (s : Pool) (tenantID manifestDigest : String) : Prop :=
  ∃ r ∈ s.store.rows, r.tenantID = tenantID ∧ r.manifestDigest = manifestDigest ∧
    r.recent s.now cachePopulatedDedupWindow ∧ r.scanID ∈ s.accepted ∧ r.status ≠ .failed

theorem recent_iff {r : ScanRecord} {now : Int} :
    r.recent now cachePopulatedDedupWindow = true ↔ r.status = .pending ∨ r.status = .running ∨
        (r.completedAt.any fun t => now - cachePopulatedDedupWindow < t) = true := by
  have hpos : 0 < cachePopulatedDedupWindow := by decide
  unfold ScanRecord.recent
  simp only [decide_eq_true_eq, hpos, true_and]

theorem Wf.backed_of_job {s : Pool} (h : Wf s) {j : ScanJob} (hj : j ∈ s.jobs ++ s.running) :
    Backed s j.tenantID j.manifestDigest := by
  have hrecord : ∃ r, s.store.get j.scanID = some r ∧ RecordOf r j ∧ j.scanID ∈ s.accepted ∧
      (r.status = .pending ∨ r.status = .running) := by
    rcases mem_append.mp hj with hj | hj
    · obtain ⟨r, hview, hst, hrec⟩ := (h j.scanID).of_queued (mem_ofID.mpr ⟨hj, rfl⟩)
      simp only [view, View.mk.injEq] at hview
      exact ⟨r, hview.1, hrec, of_decide_eq_true hview.2.2.2.2.1, Or.inl hst⟩
    · obtain ⟨r, hview, hst, hrec⟩ := (h j.scanID).of_inHand (mem_ofID.mpr ⟨hj, rfl⟩)
      simp only [view, View.mk.injEq] at hview
      exact ⟨r, hview.1, hrec, of_decide_eq_true hview.2.2.2.2.1, Or.inr hst⟩
  obtain ⟨r, hget, ⟨ht, hd⟩, hacc, hst⟩ := hrecord
  have hid : r.scanID = j.scanID := Table.key_of_get hget
  refine ⟨r, Table.mem_of_get hget, ht, hd, ?_, hid ▸ hacc, ?_⟩
  · rcases hst with hst | hst <;> simp [recent_iff, hst]
  · rcases hst with hst | hst <;> simp [hst]

theorem covered_iff_backed {s : Pool} (h : Wf s) (tenantID manifestDigest : String) :
    Covered s tenantID manifestDigest ↔ Backed s tenantID manifestDigest := by
  constructor
  · intro hcov
    rcases hcov with ⟨j, hj, rfl, rfl⟩ | ⟨r, hr, ht, hd, hst, hwin⟩
    · exact h.backed_of_job hj
    · have hacc := (h r.scanID).accepted_of_complete (s.store.get_key hr) hst
      exact ⟨r, hr, ht, hd, recent_iff.mpr (Or.inr (Or.inr hwin)), of_decide_eq_true hacc,
        by simp [hst]⟩
  · rintro ⟨r, hr, ht, hd, hrecent, hacc, hst⟩
    rcases (h r.scanID).of_accepted (s.store.get_key hr) (decide_eq_true hacc) with
      ⟨j, hj, hrec⟩ | hdone | hfailed
    · -- Its job is still there.
      refine Or.inl ⟨j, ?_, hrec.1.symm.trans ht, hrec.2.symm.trans hd⟩
      rcases mem_append.mp hj with hj | hj
      · exact mem_append_left _ (mem_ofID.mp hj).1
      · exact mem_append_right _ (mem_ofID.mp hj).1
    · rw [recent_iff] at hrecent
      exact Or.inr ⟨r, hr, ht, hd, hdone, by simpa [hdone] using hrecent⟩
    · exact absurd hfailed hst

section Schedules

variable (cfg : Config)

def AutoScanOn (s : Pool) (p : CachePopulatedPayload) : Prop :=
  ∃ tenantID policy, cfg.parse p.tenantID = some tenantID ∧
    s.policies.get (tenantID, p.upstreamName) = some policy ∧ policy.autoScan = true

def Skips (s : Pool) (a : Action) (p : CachePopulatedPayload) : Prop :=
  ∃ reachable scanID, a = .cachePopulated reachable (some p) scanID ∧
    s.onCachePopulated cfg reachable (some p) scanID = .done

def Enqueues (s : Pool) (a : Action) (tenantID manifestDigest : String) : Prop :=
  ∃ scanID job, a = .enqueue scanID ∧ s.offer? scanID = some job ∧ s.hasRoom cfg = true ∧
    job.tenantID = tenantID ∧ job.manifestDigest = manifestDigest

def NilCovered (s : Pool) (a : Action) : Prop :=
  (∀ p, Skips cfg s a p → AutoScanOn cfg s p → Covered (s.step cfg a) p.tenantID p.manifestDigest) ∧
    ∀ tenantID manifestDigest, Enqueues cfg s a tenantID manifestDigest →
      Covered (s.step cfg a) tenantID manifestDigest

def NeedsNoScan (s : Pool) (reachable : Bool) (p : CachePopulatedPayload) : Prop :=
  (p.tenantID = "" ∨ p.manifestDigest = "" ∨ p.upstreamName = "") ∨ reachable = true ∧
    hasRecentScan s.store s.now p.tenantID p.manifestDigest cachePopulatedDedupWindow = true

/-- If an event is not to make a job although its image is to be scanned, a scan of the image is
under way or done. -/
def SkipsBacked (s : Pool) : Action → Prop
  | .cachePopulated reachable (some p) _ =>
    AutoScanOn cfg s p → NeedsNoScan s reachable p → Backed s p.tenantID p.manifestDigest
  | _ => True

variable {cfg}

theorem onCachePopulated_done_iff {s : Pool} {p : CachePopulatedPayload} (hon : AutoScanOn cfg s p)
    {reachable : Bool} {scanID : String} :
    s.onCachePopulated cfg reachable (some p) scanID = .done ↔ NeedsNoScan s reachable p := by
  obtain ⟨tenantID, policy, hparse, hget, hauto⟩ := hon
  unfold Pool.onCachePopulated handleCachePopulated NeedsNoScan
  by_cases hempty : p.tenantID = "" ∨ p.manifestDigest = "" ∨ p.upstreamName = ""
  · simp [hempty]
  · cases reachable <;> simp [hempty, proxyCachePolicyResolver, hparse, hget, hauto]

theorem step_of_skips {s : Pool} {a : Action} {p : CachePopulatedPayload}
    (h : Skips cfg s a p) : s.step cfg a = s := by
  obtain ⟨reachable, scanID, rfl, hdone⟩ := h
  show s.follow _ = s
  rw [hdone]
  rfl

theorem covered_of_enqueues {s : Pool} {a : Action} {tenantID manifestDigest : String}
    (h : Enqueues cfg s a tenantID manifestDigest) :
    Covered (s.step cfg a) tenantID manifestDigest := by
  obtain ⟨scanID, job, rfl, hoffer, hroom, ht, hd⟩ := h
  refine Or.inl ⟨job, ?_, ht, hd⟩
  show job ∈ (s.enqueue cfg scanID).jobs ++ (s.enqueue cfg scanID).running
  unfold Pool.enqueue
  simp [hoffer, hroom]

theorem nilCovered_iff {s : Pool} (h : Wf s) (a : Action) :
    NilCovered cfg s a ↔ SkipsBacked cfg s a := by
  constructor
  · intro hnil
    unfold SkipsBacked
    split
    · rename_i reachable p scanID
      intro hon hskipped
      have hskip : Skips cfg s (.cachePopulated reachable (some p) scanID) p :=
        ⟨reachable, scanID, rfl, (onCachePopulated_done_iff hon).mpr hskipped⟩
      have hcov := hnil.1 p hskip hon
      rw [step_of_skips hskip] at hcov
      exact (covered_iff_backed h _ _).mp hcov
    · trivial
  · intro hback
    refine ⟨fun p hskip hon => ?_, fun _ _ henq => covered_of_enqueues henq⟩
    rw [step_of_skips hskip]
    obtain ⟨reachable, scanID, rfl, hdone⟩ := hskip
    exact (covered_iff_backed h _ _).mpr (hback hon ((onCachePopulated_done_iff hon).mp hdone))

/-- **When acknowledged events of the cache are scanned.** -/
theorem nil_replies_covered_iff (cfg : Config) (policies : ProxyCacheScanPolicies) (now : Int)
    (acts : List Action) :
    Guarded (Pool.step cfg) (NilCovered cfg) (Pool.fresh policies now) acts ↔
      Guarded (Pool.step cfg) (SkipsBacked cfg) (Pool.fresh policies now) acts := by
  have hall : Guarded (Pool.step cfg) (fun _ _ => True) (Pool.fresh policies now) acts :=
    guarded_of_forall fun _ _ => trivial
  refine guarded_congr_of_invariant (I := Wf) ?_ (Wf.fresh policies now) hall
  intro s a h _
  exact ⟨nilCovered_iff h a, fun _ => h.step cfg a⟩

end Schedules

deriving instance Decidable for Covered

def sampleConfig : Config := ⟨1, sampleParse⟩

def sampleProxyPolicies : ProxyCacheScanPolicies := .single ⟨1, "hub", true, ""⟩

def sampleImage : CachePopulatedPayload := ⟨"1", "hub", "library/app", "sha256:aa"⟩

def sampleEvent (scanID : String) : Action := .cachePopulated true (some sampleImage) scanID

def refusedEvent : List Action :=
  [.triggerScan "1" "" "library/db" "sha256:bb" "s1", .enqueue "s1",
    .triggerScan "1" "" "library/web" "sha256:cc" "s2", .enqueue "s2",
    sampleEvent "s3", .enqueue "s3"]

def failedEvent : List Action :=
  [sampleEvent "s3", .enqueue "s3", .take, .finish "s3" false]

def afterEvents (acts : List Action) : Pool :=
  run (Pool.step sampleConfig) (Pool.fresh sampleProxyPolicies 0) acts

theorem not_nilCovered {s : Pool} (hdone : s.onCachePopulated sampleConfig true
      (some sampleImage) "s4" = .done)
    (hon : s.policies = sampleProxyPolicies) (hcov : ¬ Covered s "1" "sha256:aa") :
    ¬ NilCovered sampleConfig s (sampleEvent "s4") := by
  intro hnil
  have hskip : Skips sampleConfig s (sampleEvent "s4") sampleImage := ⟨true, "s4", rfl, hdone⟩
  have hauto : AutoScanOn sampleConfig s sampleImage :=
    ⟨1, ⟨1, "hub", true, ""⟩, rfl, by rw [hon]; decide, rfl⟩
  have hcovered := hnil.1 sampleImage hskip hauto
  rw [step_of_skips hskip] at hcovered
  exact hcov hcovered

theorem redelivered_event_unscanned :
    ¬ Covered (afterEvents (refusedEvent ++ [sampleEvent "s4"])) "1" "sha256:aa" ∧
    ¬ Covered (afterEvents (failedEvent ++ [sampleEvent "s4"])) "1" "sha256:aa" ∧
    ¬ Guarded (Pool.step sampleConfig) (NilCovered sampleConfig)
      (Pool.fresh sampleProxyPolicies 0) (refusedEvent ++ [sampleEvent "s4"]) ∧
    ¬ Guarded (Pool.step sampleConfig) (NilCovered sampleConfig)
      (Pool.fresh sampleProxyPolicies 0) (failedEvent ++ [sampleEvent "s4"]) := by
  refine ⟨by decide, by decide, ?_, ?_⟩
  · intro h
    have hlast := (guarded_append.mp h).2.1
    exact not_nilCovered (by decide) rfl (by decide) hlast
  · intro h
    have hlast := (guarded_append.mp h).2.1
    exact not_nilCovered (by decide) rfl (by decide) hlast

end OciJanus.Scanner.CachedImages
