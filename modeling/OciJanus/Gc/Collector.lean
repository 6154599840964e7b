import OciJanus.Core.Storage
import OciJanus.Gc.Runs
import OciJanus.Metadata.Tables

/-!
# The collector of registry-gc

Blobs without a link are those of the whole database, under the tenant that is visited.
-/

namespace OciJanus.Gc.Collector

open Core.Storage List
open Gc.Runs (SweepMode Outcome)
open Metadata Verified.KeyedTable

def arrives {α : Type*} : Option Nat → List α → List α
  | none, xs => xs
  | some n, xs => xs.take n

theorem mem_of_mem_arrives {α : Type*} {n : Option Nat} {xs : List α} {x : α}
    (h : x ∈ arrives n xs) : x ∈ xs := by
  cases n with
  | none => exact h
  | some n => exact mem_of_mem_take h

structure ManifestFaults where
  repositories : Option Nat
  untagged : String → Option Nat
  deleteFails : String → String → Bool

def ManifestFaults.none : ManifestFaults := ⟨.none, fun _ => .none, fun _ _ => false⟩

structure ManifestSweep where
  store : Store
  deleted : Nat

section
variable (cutoff : Int) (dryRun : Bool) (f : ManifestFaults)

def sweepManifest (repo : RepositoryRow) (acc : ManifestSweep) (m : Manifest) : ManifestSweep :=
  if cutoff < m.createdAt then acc
  else if dryRun then { acc with deleted := acc.deleted + 1 }
  else if f.deleteFails repo.id m.digest then acc
  else
    match acc.store.deleteManifest repo.tenantID repo.id m.digest with
    | .ok store => ⟨store, acc.deleted + 1⟩
    | .error _ => acc

def sweepRepository (acc : ManifestSweep) (repo : RepositoryRow) : ManifestSweep :=
  (arrives (f.untagged repo.id) (acc.store.listUntaggedManifests repo.tenantID repo.id)).foldl
    (sweepManifest cutoff dryRun f repo) acc

def sweepTenantManifests (s : Store) (tenantID : String) : ManifestSweep :=
  (arrives f.repositories (s.listRepositories tenantID)).foldl (sweepRepository cutoff dryRun f)
    ⟨s, 0⟩

end

structure SweptFrom (s : Store) (Gone : Manifest → Prop) (s' : Store) : Prop where
  organizations : s'.organizations = s.organizations
  repositories : s'.repositories = s.repositories
  tags : s'.tags = s.tags
  manifestChildren : s'.manifestChildren = s.manifestChildren
  kept : ∀ m ∈ s'.manifests.rows, m ∈ s.manifests.rows
  gone : ∀ m ∈ s.manifests.rows, m ∉ s'.manifests.rows → Gone m

theorem SweptFrom.refl (s : Store) (Gone : Manifest → Prop) : SweptFrom s Gone s :=
  ⟨rfl, rfl, rfl, rfl, fun _ h => h, fun _ h hn => absurd h hn⟩

theorem SweptFrom.tagged {s s' : Store} {Gone : Manifest → Prop} (h : SweptFrom s Gone s')
    (repoID digest : String) : s'.Tagged repoID digest ↔ s.Tagged repoID digest := by
  unfold Store.Tagged
  rw [h.tags]

def Sweepable (s : Store) (tenantID : String) (cutoff : Int) (m : Manifest) : Prop :=
  m.tenantID = tenantID ∧ (∃ repo ∈ s.listRepositories tenantID, repo.id = m.repoID) ∧
    ¬ s.Tagged m.repoID m.digest ∧ m.createdAt ≤ cutoff

section
variable {cutoff : Int} {dryRun : Bool} {f : ManifestFaults} {s : Store} {tenantID : String}
  {repo : RepositoryRow} {acc : ManifestSweep} {m : Manifest}

theorem mem_listUntaggedManifests {repoID : String} :
    m ∈ s.listUntaggedManifests tenantID repoID ↔
      m ∈ s.manifests.rows ∧ m.repoID = repoID ∧ m.tenantID = tenantID ∧
        ¬ s.Tagged m.repoID m.digest := by
  simp [Store.listUntaggedManifests]

theorem mem_listRepositories :
    repo ∈ s.listRepositories tenantID ↔ repo ∈ s.repositories.rows ∧ repo.tenantID = tenantID := by
  simp [Store.listRepositories]

theorem deleteManifestHit_iff {repoID digest : String} :
    Store.deleteManifestHit tenantID repoID digest m = true ↔
      m.repoID = repoID ∧ m.digest = digest ∧ m.tenantID = tenantID := by
  simp [Store.deleteManifestHit]

theorem sweepManifest_swept
    (hacc : SweptFrom s (fun r => dryRun = false ∧ Sweepable s tenantID cutoff r) acc.store)
    (hrepo : repo ∈ s.listRepositories tenantID)
    (hm : m ∈ s.listUntaggedManifests tenantID repo.id) :
    SweptFrom s (fun r => dryRun = false ∧ Sweepable s tenantID cutoff r)
      (sweepManifest cutoff dryRun f repo acc m).store := by
  unfold sweepManifest
  split_ifs with hyoung hdry hfails
  · exact hacc
  · exact hacc
  · exact hacc
  · cases hdel : acc.store.deleteManifest repo.tenantID repo.id m.digest with
    | error e => exact hacc
    | ok store =>
      obtain ⟨horgs, hrepos, htags, hchildren, hrows⟩ := Store.deleteManifest_ok hdel
      obtain ⟨hms, hmrepo, hmtenant, huntagged⟩ := mem_listUntaggedManifests.mp hm
      refine ⟨horgs.trans hacc.organizations, hrepos.trans hacc.repositories,
          htags.trans hacc.tags, hchildren.trans hacc.manifestChildren, ?_, ?_⟩
      · intro r hr
        rw [hrows, Table.mem_remove] at hr
        exact hacc.kept r hr.1
      · intro r hr hgone
        rw [hrows, Table.mem_remove, not_and, Bool.not_eq_false] at hgone
        by_cases hracc : r ∈ acc.store.manifests.rows
        · obtain ⟨hrrepo, hrdigest, _⟩ := deleteManifestHit_iff.mp (hgone hracc)
          have hrm : r = m := s.manifests.eq_of_key_eq hr hms (by rw [hrrepo, hrdigest, hmrepo])
          rw [hrm]
          exact ⟨by simpa using hdry, hmtenant, ⟨repo, hrepo, hmrepo.symm⟩, huntagged,
            not_lt.mp hyoung⟩
        · exact hacc.gone r hr hracc

theorem sweepRepository_swept
    (hacc : SweptFrom s (fun r => dryRun = false ∧ Sweepable s tenantID cutoff r) acc.store)
    (hrepo : repo ∈ s.listRepositories tenantID) :
    SweptFrom s (fun r => dryRun = false ∧ Sweepable s tenantID cutoff r)
      (sweepRepository cutoff dryRun f acc repo).store := by
  have hlisted : ∀ m ∈ arrives (f.untagged repo.id)
      (acc.store.listUntaggedManifests repo.tenantID repo.id),
      m ∈ s.listUntaggedManifests tenantID repo.id := by
    intro m hm
    obtain ⟨hmacc, hmrepo, hmtenant, huntagged⟩ :=
      mem_listUntaggedManifests.mp (mem_of_mem_arrives hm)
    rw [(mem_listRepositories.mp hrepo).2] at hmtenant
    rw [hacc.tagged] at huntagged
    exact mem_listUntaggedManifests.mpr ⟨hacc.kept m hmacc, hmrepo, hmtenant, huntagged⟩
  unfold sweepRepository
  generalize arrives (f.untagged repo.id)
    (acc.store.listUntaggedManifests repo.tenantID repo.id) = listing at hlisted
  induction listing generalizing acc with
  | nil => exact hacc
  | cons m rest ih =>
    have hone := sweepManifest_swept (f := f) hacc hrepo (hlisted m (by simp))
    exact ih hone fun r hr => hlisted r (by simp [hr])

theorem sweepRepositories_swept {repos : List RepositoryRow}
    (hacc : SweptFrom s (fun r => dryRun = false ∧ Sweepable s tenantID cutoff r) acc.store)
    (hrepos : ∀ repo ∈ repos, repo ∈ s.listRepositories tenantID) :
    SweptFrom s (fun r => dryRun = false ∧ Sweepable s tenantID cutoff r)
      (repos.foldl (sweepRepository cutoff dryRun f) acc).store := by
  induction repos generalizing acc with
  | nil => exact hacc
  | cons repo rest ih =>
    have hone := sweepRepository_swept (f := f) hacc (hrepos repo (by simp))
    exact ih hone fun r hr => hrepos r (by simp [hr])

theorem sweepTenantManifests_swept (cutoff : Int) (dryRun : Bool) (f : ManifestFaults) (s : Store)
    (tenantID : String) :
    SweptFrom s (fun r => dryRun = false ∧ Sweepable s tenantID cutoff r)
      (sweepTenantManifests cutoff dryRun f s tenantID).store :=
  sweepRepositories_swept (SweptFrom.refl s _) fun _ h => mem_of_mem_arrives h

/-! Without failures nothing that may be removed stays. -/

theorem sweepManifest_kept (r : Manifest)
    (h : r ∈ (sweepManifest cutoff dryRun f repo acc m).store.manifests.rows) :
    r ∈ acc.store.manifests.rows := by
  unfold sweepManifest at h
  split_ifs at h with hyoung hdry hfails
  · exact h
  · exact h
  · exact h
  · cases hdel : acc.store.deleteManifest repo.tenantID repo.id m.digest with
    | error e =>
      rw [hdel] at h
      exact h
    | ok store =>
      rw [hdel] at h
      obtain ⟨_, _, _, _, hrows⟩ := Store.deleteManifest_ok hdel
      rw [hrows, Table.mem_remove] at h
      exact h.1

theorem sweepManifests_kept (listing : List Manifest) (r : Manifest)
    (h : r ∈ (listing.foldl (sweepManifest cutoff dryRun f repo) acc).store.manifests.rows) :
    r ∈ acc.store.manifests.rows := by
  induction listing generalizing acc with
  | nil => exact h
  | cons m rest ih => exact sweepManifest_kept r (ih h)

theorem sweepRepositories_kept (repos : List RepositoryRow) (r : Manifest)
    (h : r ∈ (repos.foldl (sweepRepository cutoff dryRun f) acc).store.manifests.rows) :
    r ∈ acc.store.manifests.rows := by
  induction repos generalizing acc with
  | nil => exact h
  | cons repo rest ih => exact sweepManifests_kept _ r (ih h)

theorem sweepManifest_removes (hold : m.createdAt ≤ cutoff) (hrepo : m.repoID = repo.id)
    (htenant : m.tenantID = repo.tenantID) :
    m ∉ (sweepManifest cutoff false .none repo acc m).store.manifests.rows := by
  have hyoung : ¬ cutoff < m.createdAt := not_lt.mpr hold
  unfold sweepManifest
  rw [if_neg hyoung, if_neg (by simp), if_neg (by simp [ManifestFaults.none])]
  unfold Store.deleteManifest
  split_ifs with hany
  · simp [Table.mem_remove, Store.deleteManifestHit, hrepo, htenant]
  · intro hmem
    refine hany (any_eq_true.mpr ⟨m, hmem, ?_⟩)
    exact deleteManifestHit_iff.mpr ⟨hrepo, rfl, htenant⟩

theorem sweepManifests_remove {listing : List Manifest} (hm : m ∈ listing)
    (hold : m.createdAt ≤ cutoff) (hrepo : m.repoID = repo.id)
    (htenant : m.tenantID = repo.tenantID) :
    m ∉ (listing.foldl (sweepManifest cutoff false .none repo) acc).store.manifests.rows := by
  induction listing generalizing acc with
  | nil => cases hm
  | cons r rest ih =>
    rcases mem_cons.mp hm with rfl | hm
    · exact fun h => sweepManifest_removes hold hrepo htenant (sweepManifests_kept rest m h)
    · exact ih hm

theorem sweepRepository_removes (htags : acc.store.tags = s.tags) (hrepo : m.repoID = repo.id)
    (htenant : m.tenantID = repo.tenantID) (huntagged : ¬ s.Tagged m.repoID m.digest)
    (hold : m.createdAt ≤ cutoff) :
    m ∉ (sweepRepository cutoff false .none acc repo).store.manifests.rows := by
  by_cases hmem : m ∈ acc.store.manifests.rows
  · have hlisted : m ∈ acc.store.listUntaggedManifests repo.tenantID repo.id := by
      refine mem_listUntaggedManifests.mpr ⟨hmem, hrepo, htenant, ?_⟩
      unfold Store.Tagged at huntagged ⊢
      rwa [htags]
    exact sweepManifests_remove hlisted hold hrepo htenant
  · exact fun h => hmem (sweepManifests_kept _ m h)

theorem sweepTenantManifests_removes (h : Sweepable s tenantID cutoff m) :
    m ∉ (sweepTenantManifests cutoff false .none s tenantID).store.manifests.rows := by
  obtain ⟨htenant, ⟨repo, hrepo, hid⟩, huntagged, hold⟩ := h
  obtain ⟨before, after, hsplit⟩ := append_of_mem hrepo
  have hbefore : SweptFrom s (fun r => false = false ∧ Sweepable s tenantID cutoff r)
      (before.foldl (sweepRepository cutoff false .none) ⟨s, 0⟩).store :=
    sweepRepositories_swept (SweptFrom.refl s _) fun r hr => by simp [hsplit, hr]
  show m ∉ ((s.listRepositories tenantID).foldl (sweepRepository cutoff false .none)
    ⟨s, 0⟩).store.manifests.rows
  rw [hsplit, foldl_append, foldl_cons]
  intro hmem
  exact sweepRepository_removes hbefore.tags hid.symm
    (htenant.trans (mem_listRepositories.mp hrepo).2.symm) huntagged hold
    (sweepRepositories_kept after m hmem)

end

structure Blob where
  digest : String
  sizeBytes : Int
  storageKey : String
  deriving DecidableEq

/-- The metadata, the blobs with their links to repositories, and the objects. -/
structure World where
  store : Store
  blobs : Table Blob String (·.digest)
  blobLinks : List (String × String)
  objects : Objects

def World.listOrphanedBlobs (w : World) : List Blob :=
  w.blobs.rows.filter fun b => w.blobLinks.all fun l => l.2 ≠ b.digest

def oldestRepository (s : Store) (tenantID : String) : Option RepositoryRow :=
  (s.listRepositories tenantID).foldl (fun oldest r =>
      match oldest with
      | none => some r
      | some o => if r.createdAt < o.createdAt then some r else some o)
    none

def decrementUsed (id : String) (bytes : Int) (r : RepositoryRow) : RepositoryRow :=
  if r.id = id then { r with storageUsed := max 0 (r.storageUsed - bytes) } else r

theorem decrementUsed_id (id : String) (bytes : Int) (r : RepositoryRow) :
    (decrementUsed id bytes r).id = r.id := by
  unfold decrementUsed
  split_ifs
  · rfl
  · rfl

def decrementTenantStorage (s : Store) (tenantID : String) (bytes : Int) : Store :=
  match oldestRepository s tenantID with
  | none => s
  | some o =>
    let repositories :=
      s.repositories.mapRows (decrementUsed o.id bytes) (decrementUsed_id o.id bytes)
    have hget : ∀ id, s.repositories.get id ≠ none → repositories.get id ≠ none := by
      intro id hid
      rw [Table.get_mapRows]
      simpa using hid
    { s with
      repositories := repositories
      manifests_repo := fun m hm => hget _ (s.manifests_repo m hm)
      tags_repo := fun t ht => hget _ (s.tags_repo t ht)
      children_repo := fun c hc => hget _ (s.children_repo c hc) }

structure BlobFaults where
  orphans : Option Nat
  (deletion decrement : String → Outcome)

def BlobFaults.none : BlobFaults := ⟨.none, fun _ => .done, fun _ => .done⟩

/-- A sweep so far. `freed` is an `int64`; sizes that sum up beyond it are not modelled. -/
structure BlobSweep where
  world : World
  deleted : Nat
  freed : Int
  (counted charged : List Blob)

section
variable (dryRun : Bool) (f : BlobFaults) (tenantID : String)

def BlobSweep.count (acc : BlobSweep) (b : Blob) : BlobSweep :=
  { acc with
    deleted := acc.deleted + 1, freed := acc.freed + b.sizeBytes, counted := acc.counted ++ [b] }

def BlobSweep.charge (acc : BlobSweep) (b : Blob) : BlobSweep :=
  if f.decrement b.digest = .failed then acc
  else
    { acc with
      world :=
        { acc.world with store := decrementTenantStorage acc.world.store tenantID b.sizeBytes }
      charged := acc.charged ++ [b] }

def BlobSweep.deleteObject (acc : BlobSweep) (b : Blob) : BlobSweep :=
  { acc with
    world := { acc.world with objects := deleteBlob acc.world.objects tenantID b.storageKey true } }

def sweepBlob (acc : BlobSweep) (b : Blob) : BlobSweep :=
  if dryRun then acc.count b
  else
    match validateTenantKey tenantID b.storageKey, f.deletion b.digest with
    | .ok (), .done => ((acc.deleteObject tenantID b).charge f tenantID b).count b
    | .ok (), .lost => acc.deleteObject tenantID b
    | _, _ => acc

def sweepTenantBlobs (w : World) : BlobSweep :=
  (arrives f.orphans w.listOrphanedBlobs).foldl (sweepBlob dryRun f tenantID) ⟨w, 0, 0, [], []⟩

end

structure Result where
  (manifestsDeleted blobsDeleted : Nat)
  bytesFreed : Int
  tenantsSkipped : Nat
  counted : List (String × Blob)

structure RunState where
  world : World
  result : Result
  charged : List (String × Blob)

def RunState.start (w : World) : RunState := ⟨w, ⟨0, 0, 0, 0, []⟩, []⟩

inductive TryLock where
  | acquired
  | held
  | failed
  deriving DecidableEq

structure RunFaults where
  listTenants : Option String
  lock : String → TryLock
  manifests : String → ManifestFaults
  blobs : String → BlobFaults
  panics : Option (Nat × String)

def RunFaults.none : RunFaults :=
  ⟨.none, fun _ => .acquired, fun _ => .none, fun _ => .none, .none⟩

section
variable (mode : SweepMode) (cutoff : Int) (f : RunFaults)

def sweepsManifests : Bool := mode = .manifests ∨ mode = .full ∨ mode = .dryRun

def sweepsBlobs : Bool := mode = .blobs ∨ mode = .full ∨ mode = .dryRun

def manifestPhase (acc : RunState) (tenantID : String) : Bool × RunState :=
  if sweepsManifests mode then
    let swept := sweepTenantManifests cutoff (mode = .dryRun) (f.manifests tenantID)
      acc.world.store tenantID
    let acc := { acc with world := { acc.world with store := swept.store } }
    if (f.manifests tenantID).repositories.isSome then (false, acc)
    else
      (true,
        { acc with
          result :=
            { acc.result with
              manifestsDeleted := acc.result.manifestsDeleted + swept.deleted } })
  else (true, acc)

def blobPhase (acc : RunState) (tenantID : String) : RunState :=
  if sweepsBlobs mode then
    let swept := sweepTenantBlobs (mode = .dryRun) (f.blobs tenantID) tenantID acc.world
    let acc :=
      { acc with
        world := swept.world
        charged := acc.charged ++ swept.charged.map fun b => (tenantID, b) }
    if (f.blobs tenantID).orphans.isSome then acc
    else
      { acc with
        result :=
          { acc.result with
            blobsDeleted := acc.result.blobsDeleted + swept.deleted
            bytesFreed := acc.result.bytesFreed + swept.freed
            counted := acc.result.counted ++ swept.counted.map fun b => (tenantID, b) } }
  else acc

def runForTenant (acc : RunState) (tenantID : String) : RunState :=
  match f.lock tenantID with
  | .failed => acc
  | .held =>
    { acc with result := { acc.result with tenantsSkipped := acc.result.tenantsSkipped + 1 } }
  | .acquired =>
    match manifestPhase mode cutoff f acc tenantID with
    | (false, acc) => acc
    | (true, acc) => blobPhase mode f acc tenantID

def run (w : World) (tenants : List String) : RunState × Except String Unit :=
  match f.listTenants, f.panics with
  | some err, _ => (.start w, .error ("list tenants: " ++ err))
  | .none, some (n, p) =>
    ((tenants.take n).foldl (runForTenant mode cutoff f) (.start w), .error ("gc panic: " ++ p))
  | .none, .none => (tenants.foldl (runForTenant mode cutoff f) (.start w), .ok ())

end

theorem decrementTenantStorage_manifests (s : Store) (tenantID : String) (bytes : Int) :
    (decrementTenantStorage s tenantID bytes).manifests = s.manifests := by
  unfold decrementTenantStorage
  split
  · rfl
  · rfl

theorem sweepBlob_manifests (dryRun : Bool) (f : BlobFaults) (tenantID : String) (acc : BlobSweep)
    (b : Blob) :
    (sweepBlob dryRun f tenantID acc b).world.store.manifests = acc.world.store.manifests := by
  unfold sweepBlob
  split_ifs
  · rfl
  · split
    · unfold BlobSweep.count BlobSweep.charge BlobSweep.deleteObject
      split_ifs
      · rfl
      · exact decrementTenantStorage_manifests _ tenantID b.sizeBytes
    · rfl
    · rfl

theorem sweepBlobs_manifests (dryRun : Bool) (f : BlobFaults) (tenantID : String)
    (blobs : List Blob) (acc : BlobSweep) :
    (blobs.foldl (sweepBlob dryRun f tenantID) acc).world.store.manifests =
      acc.world.store.manifests := by
  induction blobs generalizing acc with
  | nil => rfl
  | cons b rest ih => exact (ih _).trans (sweepBlob_manifests dryRun f tenantID acc b)

theorem sweepBlobs_dryRun (f : BlobFaults) (tenantID : String) (blobs : List Blob)
    (acc : BlobSweep) : (blobs.foldl (sweepBlob true f tenantID) acc).world = acc.world := by
  induction blobs generalizing acc with
  | nil => rfl
  | cons b rest ih => exact ih (acc.count b)

def KeepsManifests (w w' : World) : Prop :=
  ∀ m ∈ w.store.manifests.rows, m ∈ w'.store.manifests.rows

section
variable {mode : SweepMode} {cutoff : Int} {f : RunFaults}

theorem run_keeps {P : World → Prop}
    (hstep : ∀ acc tenantID, P acc.world → P (runForTenant mode cutoff f acc tenantID).world)
    {w : World} (hw : P w) (tenants : List String) : P (run mode cutoff f w tenants).1.world := by
  have hfold : ∀ (ts : List String) (acc : RunState), P acc.world →
      P (ts.foldl (runForTenant mode cutoff f) acc).world := by
    intro ts
    induction ts with
    | nil => exact fun _ h => h
    | cons t ts ih => exact fun acc h => ih _ (hstep acc t h)
  unfold run
  split
  · exact hw
  · exact hfold _ _ hw
  · exact hfold _ _ hw

theorem manifestPhase_objects (mode : SweepMode) (cutoff : Int) (f : RunFaults) (acc : RunState)
    (tenantID : String) :
    (manifestPhase mode cutoff f acc tenantID).2.world.objects = acc.world.objects := by
  unfold manifestPhase
  split_ifs
  · rfl
  · rfl
  · rfl

theorem manifestPhase_manifests (hmode : mode = .dryRun ∨ mode = .blobs) (cutoff : Int)
    (f : RunFaults) (acc : RunState) (tenantID : String) :
    KeepsManifests acc.world (manifestPhase mode cutoff f acc tenantID).2.world := by
  intro m hm
  by_cases hsweeps : sweepsManifests mode = true
  · have hdry : mode = .dryRun := by
      rcases hmode with rfl | rfl
      · rfl
      · cases hsweeps
    have hswept := sweepTenantManifests_swept cutoff (decide (mode = .dryRun))
      (f.manifests tenantID) acc.world.store tenantID
    have hkept : m ∈ (sweepTenantManifests cutoff (decide (mode = .dryRun)) (f.manifests tenantID)
        acc.world.store tenantID).store.manifests.rows := by
      by_contra hgone
      have := (hswept.gone m hm hgone).1
      simp [hdry] at this
    unfold manifestPhase
    simp only [hsweeps, if_true]
    split_ifs
    · exact hkept
    · exact hkept
  · unfold manifestPhase
    rw [if_neg hsweeps]
    exact hm

theorem blobPhase_manifests (acc : RunState) (tenantID : String) :
    (blobPhase mode f acc tenantID).world.store.manifests = acc.world.store.manifests := by
  have hsweep := sweepBlobs_manifests (decide (mode = .dryRun)) (f.blobs tenantID) tenantID
    (arrives (f.blobs tenantID).orphans acc.world.listOrphanedBlobs) ⟨acc.world, 0, 0, [], []⟩
  unfold blobPhase
  simp only
  split_ifs
  · exact hsweep
  · exact hsweep
  · rfl

theorem blobPhase_objects (hmode : mode = .dryRun ∨ mode = .manifests) (acc : RunState)
    (tenantID : String) : (blobPhase mode f acc tenantID).world.objects = acc.world.objects := by
  unfold blobPhase
  rcases hmode with rfl | rfl
  · have hdry : (sweepTenantBlobs true (f.blobs tenantID) tenantID acc.world).world = acc.world :=
      sweepBlobs_dryRun _ tenantID _ _
    have hsweeps : sweepsBlobs .dryRun = true := rfl
    rw [if_pos hsweeps]
    simp only
    split_ifs
    · exact congrArg World.objects hdry
    · exact congrArg World.objects hdry
  · rfl

theorem run_manifests (hmode : mode = .dryRun ∨ mode = .blobs) (w : World)
    (tenants : List String) : KeepsManifests w (run mode cutoff f w tenants).1.world := by
  refine run_keeps (P := KeepsManifests w) ?_ (fun _ hm => hm) tenants
  intro acc tenantID hacc m hm
  have hphase := manifestPhase_manifests hmode cutoff f acc tenantID m (hacc m hm)
  unfold runForTenant
  split
  · exact hacc m hm
  · exact hacc m hm
  · split
    · rename_i acc' heq
      rwa [heq] at hphase
    · rename_i acc' heq
      rw [heq] at hphase
      rwa [blobPhase_manifests]

theorem run_objects (hmode : mode = .dryRun ∨ mode = .manifests) (w : World)
    (tenants : List String) : (run mode cutoff f w tenants).1.world.objects = w.objects := by
  refine run_keeps (P := fun w' => w'.objects = w.objects) ?_ rfl tenants
  intro acc tenantID hacc
  have hphase := manifestPhase_objects mode cutoff f acc tenantID
  unfold runForTenant
  split
  · exact hacc
  · exact hacc
  · split
    · rename_i acc' heq
      rw [heq] at hphase
      exact hphase.trans hacc
    · rename_i acc' heq
      rw [heq] at hphase
      exact (blobPhase_objects hmode acc' tenantID).trans (hphase.trans hacc)

end

end OciJanus.Gc.Collector
