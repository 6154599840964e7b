import OciJanus.Gc.Collector

/-!
# What blob sweeps count and charge

A sweep of a tenant lists the orphans of every tenant, and the row of a blob is never removed.
-/

namespace OciJanus.Gc.BlobAccounting

open Core.Storage Gc.Collector List
open Gc.Runs (SweepMode Outcome)
open Metadata

def owns (tenantID : String) (b : Blob) : Bool :=
  validateTenantKey tenantID b.storageKey = .ok ()

def countable (dryRun : Bool) (f : BlobFaults) (tenantID : String) (b : Blob) : Bool :=
  dryRun || (owns tenantID b && f.deletion b.digest = .done)

def chargeable (dryRun : Bool) (f : BlobFaults) (tenantID : String) (b : Blob) : Bool :=
  !dryRun && owns tenantID b && f.deletion b.digest = .done && f.decrement b.digest ≠ .failed

def sizes : List Blob → Int
  | [] => 0
  | b :: bs => b.sizeBytes + sizes bs

theorem sizes_append (bs cs : List Blob) : sizes (bs ++ cs) = sizes bs + sizes cs := by
  induction bs with
  | nil => simp [sizes]
  | cons b bs ih =>
    rw [cons_append, sizes, sizes, ih]
    omega

def BlobTotals (acc : BlobSweep) : Prop :=
  acc.deleted = acc.counted.length ∧ acc.freed = sizes acc.counted

structure Adds (acc acc' : BlobSweep) (counted charged : List Blob) : Prop where
  counted : acc'.counted = acc.counted ++ counted
  charged : acc'.charged = acc.charged ++ charged
  blobs : acc'.world.blobs = acc.world.blobs
  blobLinks : acc'.world.blobLinks = acc.world.blobLinks
  totals : BlobTotals acc → BlobTotals acc'

theorem Adds.refl (acc : BlobSweep) : Adds acc acc [] [] :=
  ⟨(append_nil _).symm, (append_nil _).symm, rfl, rfl, id⟩

theorem Adds.trans {a b c : BlobSweep} {cs cs' ds ds' : List Blob} (h : Adds a b cs ds)
    (h' : Adds b c cs' ds') : Adds a c (cs ++ cs') (ds ++ ds') where
  counted := by rw [h'.counted, h.counted, append_assoc]
  charged := by rw [h'.charged, h.charged, append_assoc]
  blobs := h'.blobs.trans h.blobs
  blobLinks := h'.blobLinks.trans h.blobLinks
  totals := h'.totals ∘ h.totals

theorem Adds.orphans {a b : BlobSweep} {cs ds : List Blob} (h : Adds a b cs ds) :
    b.world.listOrphanedBlobs = a.world.listOrphanedBlobs := by
  unfold World.listOrphanedBlobs
  rw [h.blobs, h.blobLinks]

theorem adds_count (acc : BlobSweep) (b : Blob) : Adds acc (acc.count b) [b] [] where
  counted := rfl
  charged := (append_nil _).symm
  blobs := rfl
  blobLinks := rfl
  totals h := by
    constructor
    · show acc.deleted + 1 = (acc.counted ++ [b]).length
      rw [h.1, length_append, length_singleton]
    · show acc.freed + b.sizeBytes = sizes (acc.counted ++ [b])
      rw [h.2, sizes_append, sizes, sizes, Int.add_zero]

section
variable (dryRun : Bool) (f : BlobFaults) (tenantID : String)

theorem adds_deleteObject (acc : BlobSweep) (b : Blob) :
    Adds acc (acc.deleteObject tenantID b) [] [] :=
  ⟨(append_nil _).symm, (append_nil _).symm, rfl, rfl, id⟩

theorem adds_charge (acc : BlobSweep) (b : Blob) :
    Adds acc (acc.charge f tenantID b) [] (if f.decrement b.digest = .failed then [] else [b]) := by
  unfold BlobSweep.charge
  split_ifs
  · exact Adds.refl acc
  · exact ⟨(append_nil _).symm, rfl, rfl, rfl, id⟩

theorem sweepBlob_adds (acc : BlobSweep) (b : Blob) :
    Adds acc (sweepBlob dryRun f tenantID acc b) ([b].filter (countable dryRun f tenantID))
      ([b].filter (chargeable dryRun f tenantID)) := by
  unfold sweepBlob
  by_cases hdry : dryRun = true
  · rw [if_pos hdry]
    simpa [countable, chargeable, hdry] using adds_count acc b
  rw [if_neg hdry]
  split
  · rename_i hvalid hdone
    have hall := ((adds_deleteObject tenantID acc b).trans (adds_charge f tenantID _ b)).trans
      (adds_count _ b)
    by_cases hfailed : f.decrement b.digest = .failed
    · simpa [countable, chargeable, owns, hdry, hvalid, hdone, hfailed] using hall
    · simpa [countable, chargeable, owns, hdry, hvalid, hdone, hfailed] using hall
  · rename_i hvalid hlost
    simpa [countable, chargeable, owns, hdry, hvalid, hlost] using adds_deleteObject tenantID acc b
  · rename_i hnotdone hnotlost
    have hnot : ¬ (owns tenantID b = true ∧ f.deletion b.digest = .done) := by
      rintro ⟨howns, hdone⟩
      exact hnotdone (by simpa [owns] using howns) hdone
    have hcount : countable dryRun f tenantID b = false := by
      simpa [countable, hdry] using hnot
    have hcharge : chargeable dryRun f tenantID b = false := by
      rw [Bool.eq_false_iff]
      intro h
      simp only [chargeable, Bool.and_eq_true, decide_eq_true_eq] at h
      exact hnot ⟨h.1.1.2, h.1.2⟩
    simpa [hcount, hcharge] using Adds.refl acc

theorem sweepBlobs_adds (blobs : List Blob) (acc : BlobSweep) :
    Adds acc (blobs.foldl (sweepBlob dryRun f tenantID) acc)
      (blobs.filter (countable dryRun f tenantID))
      (blobs.filter (chargeable dryRun f tenantID)) := by
  induction blobs generalizing acc with
  | nil => exact Adds.refl acc
  | cons b rest ih =>
    have hboth := (sweepBlob_adds dryRun f tenantID acc b).trans (ih _)
    rwa [← filter_append, ← filter_append] at hboth

end

def reached (mode : SweepMode) (f : RunFaults) (tenantID : String) : Bool :=
  f.lock tenantID = .acquired &&
    !(sweepsManifests mode && (f.manifests tenantID).repositories.isSome) && sweepsBlobs mode

def withTenant (tenantID : String) (bs : List Blob) : List (String × Blob) :=
  bs.map fun b => (tenantID, b)

def counts (mode : SweepMode) (f : RunFaults) (orphans : List Blob) (tenantID : String) :
    List (String × Blob) :=
  if reached mode f tenantID && (f.blobs tenantID).orphans.isNone then
    withTenant tenantID (orphans.filter (countable (mode = .dryRun) (f.blobs tenantID) tenantID))
  else []

def charges (mode : SweepMode) (f : RunFaults) (orphans : List Blob) (tenantID : String) :
    List (String × Blob) :=
  if reached mode f tenantID then
    withTenant tenantID ((arrives (f.blobs tenantID).orphans orphans).filter
      (chargeable (mode = .dryRun) (f.blobs tenantID) tenantID))
  else []

def Totals (r : Result) : Prop :=
  r.blobsDeleted = r.counted.length ∧ r.bytesFreed = sizes (r.counted.map Prod.snd)

structure RunAdds (acc acc' : RunState) (counted charged : List (String × Blob)) : Prop where
  counted : acc'.result.counted = acc.result.counted ++ counted
  charged : acc'.charged = acc.charged ++ charged
  orphans : acc'.world.listOrphanedBlobs = acc.world.listOrphanedBlobs
  totals : Totals acc.result → Totals acc'.result

theorem RunAdds.refl (acc : RunState) : RunAdds acc acc [] [] :=
  ⟨(append_nil _).symm, (append_nil _).symm, rfl, id⟩

theorem RunAdds.trans {a b c : RunState} {cs cs' ds ds' : List (String × Blob)}
    (h : RunAdds a b cs ds) (h' : RunAdds b c cs' ds') : RunAdds a c (cs ++ cs') (ds ++ ds') where
  counted := by rw [h'.counted, h.counted, append_assoc]
  charged := by rw [h'.charged, h.charged, append_assoc]
  orphans := h'.orphans.trans h.orphans
  totals := h'.totals ∘ h.totals

section
variable (mode : SweepMode) (cutoff : Int) (f : RunFaults)

theorem manifestPhase_adds (acc : RunState) (tenantID : String) :
    RunAdds acc (manifestPhase mode cutoff f acc tenantID).2 [] [] ∧
      (manifestPhase mode cutoff f acc tenantID).1 =
        !(sweepsManifests mode && (f.manifests tenantID).repositories.isSome) := by
  unfold manifestPhase
  by_cases hsweeps : sweepsManifests mode = true
  · by_cases hbroke : (f.manifests tenantID).repositories.isSome = true
    · simp only [hsweeps, hbroke, if_true]
      exact ⟨⟨(append_nil _).symm, (append_nil _).symm, rfl, id⟩, rfl⟩
    · simp only [hsweeps, hbroke, if_true]
      exact ⟨⟨(append_nil _).symm, (append_nil _).symm, rfl, id⟩, rfl⟩
  · rw [if_neg hsweeps]
    exact ⟨RunAdds.refl acc, by simp [hsweeps]⟩

theorem blobPhase_adds (acc : RunState) (tenantID : String) (hsweeps : sweepsBlobs mode = true) :
    RunAdds acc (blobPhase mode f acc tenantID) (if (f.blobs tenantID).orphans.isNone then
        withTenant tenantID (acc.world.listOrphanedBlobs.filter
          (countable (mode = .dryRun) (f.blobs tenantID) tenantID))
      else [])
      (withTenant tenantID ((arrives (f.blobs tenantID).orphans acc.world.listOrphanedBlobs).filter
        (chargeable (mode = .dryRun) (f.blobs tenantID) tenantID))) := by
  have hadds : Adds ⟨acc.world, 0, 0, [], []⟩
      (sweepTenantBlobs (decide (mode = .dryRun)) (f.blobs tenantID) tenantID acc.world) _ _ :=
    sweepBlobs_adds _ _ tenantID (arrives (f.blobs tenantID).orphans acc.world.listOrphanedBlobs) _
  obtain ⟨hdeleted, hfreed⟩ := hadds.totals ⟨rfl, rfl⟩
  have horphans := hadds.orphans
  have hcounted := hadds.counted
  have hcharged := hadds.charged
  rw [nil_append] at hcounted hcharged
  unfold blobPhase
  rw [if_pos hsweeps]
  simp only
  cases hstream : (f.blobs tenantID).orphans with
  | some k =>
    simp only [Option.isSome_some, if_true, Option.isNone_some]
    refine ⟨(append_nil _).symm, ?_, horphans, id⟩
    rw [hcharged, hstream]
    rfl
  | none =>
    simp only [Option.isSome_none, Option.isNone_none, if_true]
    rw [hstream] at hcounted hcharged
    refine ⟨?_, ?_, horphans, ?_⟩
    · rw [hcounted]
      rfl
    · rw [hcharged]
      rfl
    · rintro ⟨hblobs, hbytes⟩
      constructor
      · show acc.result.blobsDeleted + _ = (acc.result.counted ++ _).length
        rw [length_append, length_map, hblobs, hdeleted]
      · show acc.result.bytesFreed + _ = sizes ((acc.result.counted ++ _).map Prod.snd)
        rw [map_append, sizes_append, hbytes, hfreed, map_map]
        simp

theorem runForTenant_adds (acc : RunState) (tenantID : String) :
    RunAdds acc (runForTenant mode cutoff f acc tenantID)
      (counts mode f acc.world.listOrphanedBlobs tenantID)
      (charges mode f acc.world.listOrphanedBlobs tenantID) := by
  have hidle : ∀ acc', RunAdds acc acc' [] [] → reached mode f tenantID = false →
      RunAdds acc acc' (counts mode f acc.world.listOrphanedBlobs tenantID)
        (charges mode f acc.world.listOrphanedBlobs tenantID) := by
    intro acc' h hnot
    simpa [counts, charges, hnot] using h
  unfold runForTenant
  cases hlock : f.lock tenantID with
  | failed => exact hidle acc (RunAdds.refl acc) (by simp [reached, hlock])
  | held =>
    refine hidle _ ⟨(append_nil _).symm, (append_nil _).symm, rfl, id⟩ ?_
    simp [reached, hlock]
  | acquired =>
    obtain ⟨hphase, hok⟩ := manifestPhase_adds mode cutoff f acc tenantID
    cases hm : manifestPhase mode cutoff f acc tenantID with
    | mk ok acc' =>
      rw [hm] at hphase hok
      cases ok with
      | false => exact hidle acc' hphase (by simp [reached, ← hok])
      | true =>
        by_cases hsweeps : sweepsBlobs mode = true
        · have hreached : reached mode f tenantID = true := by
            simp [reached, hlock, ← hok, hsweeps]
          have hall := hphase.trans (blobPhase_adds mode f acc' tenantID hsweeps)
          rw [hphase.orphans, nil_append, nil_append] at hall
          simpa [counts, charges, hreached] using hall
        · have hblobs : blobPhase mode f acc' tenantID = acc' := if_neg hsweeps
          show RunAdds acc (blobPhase mode f acc' tenantID) _ _
          rw [hblobs]
          exact hidle acc' hphase (by simp [reached, hsweeps])

theorem runForTenants_adds (tenants : List String) (acc : RunState) :
    RunAdds acc (tenants.foldl (runForTenant mode cutoff f) acc)
      (tenants.flatMap (counts mode f acc.world.listOrphanedBlobs))
      (tenants.flatMap (charges mode f acc.world.listOrphanedBlobs)) := by
  induction tenants generalizing acc with
  | nil => exact RunAdds.refl acc
  | cons t ts ih =>
    have hone := runForTenant_adds mode cutoff f acc t
    have hrest := ih (runForTenant mode cutoff f acc t)
    rw [hone.orphans] at hrest
    exact hone.trans hrest

end

structure Job where
  mode : SweepMode
  cutoff : Int
  tenants : List String

def Result.plus (r r' : Result) : Result where
  manifestsDeleted := r.manifestsDeleted + r'.manifestsDeleted
  blobsDeleted := r.blobsDeleted + r'.blobsDeleted
  bytesFreed := r.bytesFreed + r'.bytesFreed
  tenantsSkipped := r.tenantsSkipped + r'.tenantsSkipped
  counted := r.counted ++ r'.counted

def addRun (l : RunState) (j : Job) (f : RunFaults) : RunState :=
  match Collector.run j.mode j.cutoff f l.world j.tenants with
  | (st, .error _) => ⟨st.world, l.result, l.charged ++ st.charged⟩
  | (st, .ok ()) => ⟨st.world, Result.plus l.result st.result, l.charged ++ st.charged⟩

def runAll (l : RunState) (faults : Nat → RunFaults) : List Job → RunState
  | [] => l
  | j :: jobs => runAll (addRun l j (faults 0)) (fun n => faults (n + 1)) jobs

def pass (mode : SweepMode) (orphans : List Blob) (tenantID : String) : List (String × Blob) :=
  if sweepsBlobs mode then
    withTenant tenantID (orphans.filter fun b => mode = .dryRun || owns tenantID b)
  else []

def passes (orphans : List Blob) (jobs : List Job) : List (String × Blob) :=
  jobs.flatMap fun j => j.tenants.flatMap (pass j.mode orphans)

theorem flatMap_sublist {α β : Type*} {f g : α → List β} (h : ∀ a, (f a).Sublist (g a))
    {l l' : List α} (hl : l.Sublist l') : (l.flatMap f).Sublist (l'.flatMap g) := by
  induction hl with
  | slnil => exact List.Sublist.refl _
  | cons a _ ih =>
    rw [flatMap_cons]
    exact ih.trans (sublist_append_right _ _)
  | cons_cons a _ ih =>
    rw [flatMap_cons, flatMap_cons]
    exact (h a).append ih

theorem arrives_sublist {α : Type*} (n : Option Nat) (xs : List α) : (arrives n xs).Sublist xs := by
  cases n with
  | none => exact List.Sublist.refl _
  | some n => exact take_sublist n xs

section
variable (mode : SweepMode) (f : RunFaults) (orphans : List Blob) (tenantID : String)

theorem part_sublist_pass {bs : List Blob} {p : Blob → Bool} (hbs : bs.Sublist orphans)
    (hp : ∀ b, p b = true → (mode = .dryRun || owns tenantID b) = true)
    (hsweeps : sweepsBlobs mode = true) :
    (withTenant tenantID (bs.filter p)).Sublist (pass mode orphans tenantID) := by
  unfold pass
  rw [if_pos hsweeps]
  exact ((hbs.filter p).trans (monotone_filter_right orphans hp)).map _

theorem counts_sublist : (counts mode f orphans tenantID).Sublist (pass mode orphans tenantID) := by
  unfold counts
  split_ifs with hreached
  · simp only [reached, Bool.and_eq_true] at hreached
    refine part_sublist_pass mode orphans tenantID (List.Sublist.refl _) ?_ hreached.1.2
    intro b hb
    simp only [countable, Bool.or_eq_true, Bool.and_eq_true] at hb ⊢
    exact hb.imp id And.left
  · exact nil_sublist _

theorem charges_sublist :
    (charges mode f orphans tenantID).Sublist (pass mode orphans tenantID) := by
  unfold charges
  split_ifs with hreached
  · simp only [reached, Bool.and_eq_true] at hreached
    refine part_sublist_pass mode orphans tenantID (arrives_sublist _ orphans) ?_ hreached.2
    intro b hb
    simp only [chargeable, Bool.and_eq_true] at hb
    rw [hb.1.1.2, Bool.or_true]
  · exact nil_sublist _

theorem counts_none : counts mode .none orphans tenantID = pass mode orphans tenantID := by
  have hreached : reached mode .none tenantID = sweepsBlobs mode := by
    simp [reached, RunFaults.none, ManifestFaults.none]
  have hcountable : countable (decide (mode = .dryRun)) .none tenantID =
      fun b => mode = .dryRun || owns tenantID b := by
    funext b
    simp [countable, BlobFaults.none]
  unfold counts pass
  rw [hreached]
  show (if (sweepsBlobs mode && true) = true then
    withTenant tenantID (orphans.filter (countable (decide (mode = .dryRun)) .none tenantID))
      else []) = _
  rw [Bool.and_true, hcountable]

end

theorem totals_plus {r r' : Result} (h : Totals r) (h' : Totals r') :
    Totals (Result.plus r r') := by
  constructor
  · show r.blobsDeleted + r'.blobsDeleted = (r.counted ++ r'.counted).length
    rw [h.1, h'.1, length_append]
  · show r.bytesFreed + r'.bytesFreed = sizes ((r.counted ++ r'.counted).map Prod.snd)
    rw [h.2, h'.2, map_append, sizes_append]

theorem addRun_adds (l : RunState) (j : Job) (f : RunFaults) :
    ∃ cs ds, RunAdds l (addRun l j f) cs ds ∧
      cs.Sublist (j.tenants.flatMap (pass j.mode l.world.listOrphanedBlobs)) ∧
      ds.Sublist (j.tenants.flatMap (pass j.mode l.world.listOrphanedBlobs)) := by
  have hadds := fun tenants =>
    runForTenants_adds j.mode j.cutoff f tenants (RunState.start l.world)
  have hcharges : ∀ tenants : List String, tenants.Sublist j.tenants →
      (tenants.flatMap (charges j.mode f l.world.listOrphanedBlobs)).Sublist
        (j.tenants.flatMap (pass j.mode l.world.listOrphanedBlobs)) := by
    intro tenants htenants
    exact flatMap_sublist (charges_sublist j.mode f _) htenants
  unfold addRun Collector.run
  cases f.listTenants with
  | some err =>
    refine ⟨[], [], ⟨(append_nil _).symm, rfl, rfl, id⟩, nil_sublist _,
      nil_sublist _⟩
  | none =>
    cases f.panics with
    | some p =>
      obtain ⟨n, message⟩ := p
      have hpart := hadds (j.tenants.take n)
      refine ⟨[], _, ⟨(append_nil _).symm, ?_, hpart.orphans, id⟩, nil_sublist _,
        hcharges _ (take_sublist n _)⟩
      exact congrArg (l.charged ++ ·) hpart.charged
    | none =>
      have hpart := hadds j.tenants
      refine ⟨_, _, ⟨congrArg (l.result.counted ++ ·) hpart.counted,
        congrArg (l.charged ++ ·) hpart.charged, hpart.orphans, fun h => ?_⟩,
        flatMap_sublist (counts_sublist j.mode f _) (List.Sublist.refl _),
        hcharges _ (List.Sublist.refl _)⟩
      exact totals_plus h (hpart.totals ⟨rfl, rfl⟩)

theorem addRun_none (l : RunState) (j : Job) :
    (addRun l j .none).result.counted =
      l.result.counted ++ j.tenants.flatMap (pass j.mode l.world.listOrphanedBlobs) := by
  have hpart := runForTenants_adds j.mode j.cutoff .none j.tenants (RunState.start l.world)
  have hcounts : counts j.mode .none l.world.listOrphanedBlobs =
      pass j.mode l.world.listOrphanedBlobs := funext (counts_none j.mode _)
  show l.result.counted ++ _ = _
  rw [← hcounts]
  exact congrArg (l.result.counted ++ ·) hpart.counted

theorem runAll_adds (l : RunState) (faults : Nat → RunFaults) (jobs : List Job) :
    ∃ cs ds, RunAdds l (runAll l faults jobs) cs ds ∧
      cs.Sublist (passes l.world.listOrphanedBlobs jobs) ∧
      ds.Sublist (passes l.world.listOrphanedBlobs jobs) := by
  induction jobs generalizing l faults with
  | nil => exact ⟨[], [], RunAdds.refl l, nil_sublist _, nil_sublist _⟩
  | cons j jobs ih =>
    obtain ⟨cs, ds, hone, hcs, hds⟩ := addRun_adds l j (faults 0)
    obtain ⟨cs', ds', hrest, hcs', hds'⟩ := ih (addRun l j (faults 0)) fun n => faults (n + 1)
    rw [hone.orphans] at hcs' hds'
    exact ⟨cs ++ cs', ds ++ ds', hone.trans hrest, hcs.append hcs', hds.append hds'⟩

theorem runAll_none (l : RunState) (jobs : List Job) :
    (runAll l (fun _ => .none) jobs).result.counted =
      l.result.counted ++ passes l.world.listOrphanedBlobs jobs := by
  induction jobs generalizing l with
  | nil => exact (append_nil _).symm
  | cons j jobs ih =>
    obtain ⟨_, _, hone, _, _⟩ := addRun_adds l j .none
    show (runAll (addRun l j .none) (fun _ => .none) jobs).result.counted = _
    rw [ih, addRun_none, hone.orphans, append_assoc]
    rfl

def OncePerOwner (orphans : List Blob) (l : List (String × Blob)) : Prop :=
  ∀ b ∈ orphans, (l.filter fun v => v.2 = b).length ≤ 1 ∧ ∀ v ∈ l, v.2 = b → owns v.1 b = true
  deriving Decidable

theorem OncePerOwner.sublist {orphans : List Blob} {l l' : List (String × Blob)}
    (h : OncePerOwner orphans l) (hsub : l'.Sublist l) : OncePerOwner orphans l' := by
  intro b hb
  obtain ⟨honce, howner⟩ := h b hb
  exact ⟨(hsub.filter _).length_le.trans honce, fun v hv => howner v (hsub.subset hv)⟩

structure AccountedOnce (w : World) (l : RunState) : Prop where
  totals : Totals l.result
  counted : OncePerOwner w.listOrphanedBlobs l.result.counted
  charged : OncePerOwner w.listOrphanedBlobs l.charged

/-- **When blobs are accounted once.** -/
theorem accounted_once_iff (w : World) (jobs : List Job) :
    (∀ faults, AccountedOnce w (runAll (.start w) faults jobs)) ↔
      OncePerOwner w.listOrphanedBlobs (passes w.listOrphanedBlobs jobs) := by
  constructor
  · intro hall
    have hcounted := (hall fun _ => .none).counted
    rwa [runAll_none] at hcounted
  · intro honce faults
    obtain ⟨cs, ds, hadds, hcs, hds⟩ := runAll_adds (.start w) faults jobs
    refine ⟨hadds.totals ⟨rfl, rfl⟩, ?_, ?_⟩
    · rw [hadds.counted]
      exact honce.sublist hcs
    · rw [hadds.charged]
      exact honce.sublist hds

def oneOrphan : World where
  store := Store.fresh ⟨[], nodup_nil⟩ (.single ⟨"r", "o", "t1", "app", false, 10, 0⟩)
  blobs := .single ⟨"sha256:b", 5, "blobs/t1/sha256/b"⟩
  blobLinks := []
  objects := fun key => if key = "blobs/t1/sha256/b" then some [1] else none

theorem orphan_accounted_twice :
    (runAll (.start oneOrphan) (fun _ => .none)
      [⟨.blobs, 0, ["t1"]⟩, ⟨.blobs, 0, ["t1"]⟩]).result.blobsDeleted = 2 ∧
    (runAll (.start oneOrphan) (fun _ => .none)
      [⟨.blobs, 0, ["t1"]⟩, ⟨.blobs, 0, ["t1"]⟩]).result.bytesFreed = 10 ∧
    (runAll (.start oneOrphan) (fun _ => .none)
      [⟨.blobs, 0, ["t1"]⟩, ⟨.blobs, 0, ["t1"]⟩]).world.store.repositories.rows.map
        (·.storageUsed) = [0] ∧
    (runAll (.start oneOrphan) (fun _ => .none)
      [⟨.dryRun, 0, ["t1", "t2"]⟩]).result.counted.map (fun v => (v.1, v.2.digest)) =
        [("t1", "sha256:b"), ("t2", "sha256:b")] := by
  decide +kernel

end OciJanus.Gc.BlobAccounting
