import OciJanus.Gc.Collector

/-!
# What tags reach, and what the sweep deletes

The children of an image index carry no tag and are reached through `manifest_children`, which the
sweep does not read.
-/

namespace OciJanus.Gc.Reachability

open Gc.Collector Metadata Verified.KeyedTable Verified.Run

def Edge (s : Store) (repoID parent child : String) : Prop :=
  ∃ e ∈ s.manifestChildren.rows, e.repoID = repoID ∧ e.parentDigest = parent ∧ e.childDigest = child

def TagReaches (s : Store) (repoID digest : String) : Prop :=
  ∃ t ∈ s.tags.rows, t.repoID = repoID ∧
    Relation.ReflTransGen (Edge s repoID) t.manifestDigest digest

def SweepKeepsReachable (s : Store) (tenantID : String) (cutoff : Int) : Prop :=
  ∀ dryRun f, ∀ m ∈ s.manifests.rows, TagReaches s m.repoID m.digest →
    m ∈ (sweepTenantManifests cutoff dryRun f s tenantID).store.manifests.rows

def ChildrenTagged (s : Store) (tenantID : String) (cutoff : Int) : Prop :=
  ∀ e ∈ s.manifestChildren.rows, TagReaches s e.repoID e.parentDigest →
    ∀ m ∈ s.manifests.rows, m.repoID = e.repoID → m.digest = e.childDigest →
      m.tenantID = tenantID → (∃ repo ∈ s.listRepositories tenantID, repo.id = m.repoID) →
        m.createdAt ≤ cutoff → s.Tagged m.repoID m.digest

theorem TagReaches.tagged_or_child {s : Store} {repoID digest : String}
    (h : TagReaches s repoID digest) :
    s.Tagged repoID digest ∨ ∃ e ∈ s.manifestChildren.rows,
      e.repoID = repoID ∧ e.childDigest = digest ∧ TagReaches s repoID e.parentDigest := by
  obtain ⟨t, ht, hrepo, hpath⟩ := h
  cases hpath with
  | refl => exact Or.inl ⟨t, ht, hrepo, rfl⟩
  | tail hpath hlast =>
    obtain ⟨e, he, herepo, hparent, hchild⟩ := hlast
    exact Or.inr ⟨e, he, herepo, hchild, t, ht, hrepo, hparent ▸ hpath⟩

theorem TagReaches.child {s : Store} {e : ManifestChild} (he : e ∈ s.manifestChildren.rows)
    (h : TagReaches s e.repoID e.parentDigest) : TagReaches s e.repoID e.childDigest := by
  obtain ⟨t, ht, hrepo, hpath⟩ := h
  exact ⟨t, ht, hrepo, hpath.tail ⟨e, he, rfl, rfl, rfl⟩⟩

theorem sweepKeepsReachable_iff_childrenTagged (s : Store) (tenantID : String) (cutoff : Int) :
    SweepKeepsReachable s tenantID cutoff ↔ ChildrenTagged s tenantID cutoff := by
  constructor
  · intro hkeeps e he hreaches m hm hrepo hdigest htenant hlisted hold
    by_contra huntagged
    have hsweepable : Sweepable s tenantID cutoff m := ⟨htenant, hlisted, huntagged, hold⟩
    have hreached : TagReaches s m.repoID m.digest := by
      rw [hrepo, hdigest]
      exact TagReaches.child he hreaches
    exact sweepTenantManifests_removes hsweepable (hkeeps false .none m hm hreached)
  · intro hchildren dryRun f m hm hreaches
    by_contra hgone
    obtain ⟨_, htenant, hlisted, huntagged, hold⟩ :=
      (sweepTenantManifests_swept cutoff dryRun f s tenantID).gone m hm hgone
    rcases hreaches.tagged_or_child with htagged | ⟨e, he, hrepo, hchild, hparent⟩
    · exact huntagged htagged
    · rw [← hrepo] at hparent
      exact huntagged (hchildren e he hparent m hm hrepo.symm hchild.symm htenant hlisted hold)

/-- **When garbage collection keeps what tags reach.** -/
theorem sweep_keeps_reachable_iff (docs : Documents) (organizations : Organizations)
    (repositories : Repositories) (ops : List Store.Op) (tenantID : String) (cutoff : Int) :
    let s := run (Store.apply docs) (Store.fresh organizations repositories) ops
    SweepKeepsReachable s tenantID cutoff ↔ ChildrenTagged s tenantID cutoff :=
  sweepKeepsReachable_iff_childrenTagged _ tenantID cutoff

def oneRepository : Repositories :=
  .single
    { id := "r", orgID := "o", tenantID := "t", name := "app", immutableTags := false,
      storageUsed := 0, createdAt := 0 }

def pushedImage : Store :=
  run (Store.apply indexDocuments) (Store.fresh ⟨[], List.nodup_nil⟩ oneRepository)
    [.putManifest 0 "t" "r" "sha256:c" mediaTypeOCIManifest [1],
      .putManifest 0 "t" "r" "sha256:p" mediaTypeOCIIndex indexBody,
      .putTag "t" "r" "v1" "sha256:p"]

theorem sweep_deletes_index_child :
    ∃ m ∈ pushedImage.manifests.rows, TagReaches pushedImage m.repoID m.digest ∧
      m ∉ (sweepTenantManifests 10 false .none pushedImage "t").store.manifests.rows := by
  refine ⟨_, List.mem_cons_self,
    ⟨_, List.mem_cons_self, rfl, .single ⟨_, List.mem_cons_self, ?_⟩⟩, ?_⟩
  · decide +kernel
  · decide +kernel

end OciJanus.Gc.Reachability
