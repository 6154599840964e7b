import OciJanus.Gc.Deleters

/-!
# Tags and the manifests under them

No constraint ties a tag to a manifest row, and none of the three deleters asks for references
when it deletes.
-/

namespace OciJanus.Gc.TagsResolve

open Core.UploadHandlers (matchesDigestRE)
open Gc.Deleters Metadata Verified.KeyedTable Verified.Run Verified.Sha256

def AllResolve (s : Store) : Prop :=
  ∀ t ∈ s.tags.rows, s.manifests.get (t.repoID, t.manifestDigest) ≠ none
  deriving Decidable

/-- The row that the action asks to delete. -/
def target (s : System) : Action → Option Candidate
  | .deleteManifest tenantID repoID reference =>
    if matchesDigestRE reference then some ⟨tenantID, repoID, reference⟩ else none
  | .sweepDelete i fails => if fails then none else (s.sweeps.getD i []).head?
  | .graceDelete i fails => if fails then none else (s.finalisers.getD i []).head?
  | _ => none

def Unreferenced (s : System) (a : Action) : Prop :=
  ∀ m ∈ s.store.manifests.rows, (target s a).any (· = .of m) = true →
    ¬ s.store.Tagged m.repoID m.digest ∧
      ∀ p ∈ s.pushes, (p.repoID, p.digest) ≠ (m.repoID, m.digest)
  deriving Decidable

/-- What a step can do to the store: it tags what a push has stored, and only its target is gone. -/
structure Effect (s : System) (a : Action) (s' : Store) : Prop where
  tags : ∀ t ∈ s'.tags.rows, t ∈ s.store.tags.rows ∨
    ∃ p ∈ s.pushes, (p.repoID, p.digest) = (t.repoID, t.manifestDigest)
  gone : ∀ m ∈ s.store.manifests.rows, s'.manifests.get (m.repoID, m.digest) = none →
    target s a = some (.of m)

section
variable {cfg : Config} {s : System} {a : Action} {s' : Store}

theorem Effect.of_kept (htags : ∀ t ∈ s'.tags.rows, t ∈ s.store.tags.rows)
    (hrows : ∀ k, s.store.manifests.get k ≠ none → s'.manifests.get k ≠ none) : Effect s a s' where
  tags t ht := Or.inl (htags t ht)
  gone m hm hnone :=
    absurd hnone (hrows _ (by rw [s.store.manifests.get_key hm]; exact Option.some_ne_none m))

theorem Effect.same : Effect s a s.store := .of_kept (fun _ ht => ht) fun _ hk => hk

theorem Effect.orSame {r : Except RepoError Store} (h : ∀ s', r = .ok s' → Effect s a s') :
    Effect s a (s.store.orSame r) := by
  rcases s.store.orSame_eq r with heq | hok
  · rw [heq]
    exact .same
  · exact h _ hok

theorem Effect.put {tenantID repoID digest mediaType : String} {rawJSON : Bytes}
    (hok : s.store.putManifest cfg.docs s.now tenantID repoID digest mediaType rawJSON = .ok s') :
    Effect s a s' := by
  have heffect := Store.putManifest_ok hok
  refine .of_kept (fun t ht => heffect.tags ▸ ht) fun k hk => ?_
  by_cases hkey : k = (repoID, digest)
  · obtain ⟨m, hm, _⟩ := heffect.row
    rw [hkey, hm]
    exact Option.some_ne_none m
  · rwa [heffect.others k hkey]

theorem Effect.deleteNext {l : List Candidate} {f : Bool}
    (h : target s a = if f then none else l.head?) :
    Effect s a (System.deleteNext s.store l f) where
  tags t ht := Or.inl (deleteNext_tags ▸ ht)
  gone m hm hnone := by
    obtain ⟨rest, rfl⟩ := deleteNext_gone hm hnone
    cases f with
    | false => exact h
    | true => exact Effect.same.gone m hm hnone

theorem step_effect (cfg : Config) (s : System) (a : Action) :
    Effect s a (s.step cfg a).store := by
  cases a with
  | tick | replicate | dropPush | sweepList | graceList => exact .same
  | mark | clear =>
    refine .of_kept (fun _ ht => ht) fun k hk => ?_
    simpa [System.step, updateManifests, Table.get_mapRows] using hk
  | sweepDelete | graceDelete => exact .deleteNext rfl
  | putManifest => exact .orSame fun _ hok => .put hok
  | pushManifest =>
    rw [System.step, System.pushManifest]
    split
    · exact .put ‹_›
    · exact .same
  | pushTag p =>
    rw [System.step]
    split_ifs with hp
    · refine .orSame fun s' hok => ?_
      have heffect := Store.putTag_ok hok
      refine ⟨fun t ht => ?_, fun m hm hnone => Effect.same.gone m hm (heffect.manifests ▸ hnone)⟩
      rcases heffect.mem ht with hold | ⟨hrepo, _, hdigest⟩
      · exact Or.inl hold
      · exact Or.inr ⟨p, hp, by rw [hrepo, hdigest]⟩
    · exact .same
  | deleteManifest tenantID repoID reference =>
    simp only [System.step, System.deleteReference]
    split_ifs with hre
    · exact Effect.deleteNext (l := [⟨tenantID, repoID, reference⟩]) (f := false) (if_pos hre)
    · exact .orSame fun s' hok => .of_kept (Store.deleteTag_ok hok).2.2.2.2
        ((Store.deleteTag_ok hok).2.2.1 ▸ fun _ hk => hk)

theorem step_pushes {p : Push} (hp : p ∈ (s.step cfg a).pushes) :
    p ∈ s.pushes ∨ (s.step cfg a).store.manifests.get (p.repoID, p.digest) ≠ none := by
  cases a with
  | tick | replicate | mark | clear | sweepList | graceList | sweepDelete | graceDelete
  | putManifest | deleteManifest => exact Or.inl hp
  | dropPush q => exact Or.inl (List.mem_of_mem_erase hp)
  | pushTag q =>
    rw [System.step] at hp
    split_ifs at hp
    · exact Or.inl (List.mem_of_mem_erase hp)
    · exact Or.inl hp
  | pushManifest tenantID repoID tag mediaType rawJSON =>
    rw [System.step, System.pushManifest] at hp ⊢
    cases hput : s.store.putManifest cfg.docs s.now tenantID repoID (cfg.digestOf rawJSON)
        mediaType rawJSON with
    | error e =>
      rw [hput] at hp
      exact Or.inl hp
    | ok s' =>
      rw [hput] at hp
      rcases List.mem_cons.mp hp with rfl | hold
      · obtain ⟨m, hm, _⟩ := (Store.putManifest_ok hput).row
        right
        show s'.manifests.get (repoID, cfg.digestOf rawJSON) ≠ none
        rw [hm]
        exact Option.some_ne_none m
      · exact Or.inl hold

end

structure Resolved (s : System) : Prop where
  tags : AllResolve s.store
  pushes : ∀ p ∈ s.pushes, s.store.manifests.get (p.repoID, p.digest) ≠ none

theorem stays_of_referenced {cfg : Config} {s : System} {a : Action} {repoID digest : String}
    (hG : Unreferenced s a) (hrow : s.store.manifests.get (repoID, digest) ≠ none)
    (href : s.store.Tagged repoID digest ∨
      ∃ p ∈ s.pushes, (p.repoID, p.digest) = (repoID, digest)) :
    (s.step cfg a).store.manifests.get (repoID, digest) ≠ none := by
  intro hgone
  obtain ⟨m, hm⟩ := Option.ne_none_iff_exists'.mp hrow
  obtain ⟨hrepo, hdigest⟩ := Store.manifests_get_key hm
  have hmem := Table.mem_of_get hm
  have htarget := (step_effect cfg s a).gone m hmem (by rwa [hrepo, hdigest])
  obtain ⟨hnotag, hnopush⟩ := hG m hmem (by simp [htarget])
  rw [hrepo, hdigest] at hnotag hnopush
  rcases href with htag | ⟨p, hp, hpm⟩
  · exact hnotag htag
  · exact hnopush p hp hpm

theorem Resolved.step {cfg : Config} {s : System} {a : Action} (hI : Resolved s)
    (hG : Unreferenced s a) : Resolved (s.step cfg a) where
  tags := by
    intro t ht
    rcases (step_effect cfg s a).tags t ht with hold | ⟨p, hp, hpt⟩
    · exact stays_of_referenced hG (hI.tags t hold) (Or.inl ⟨t, hold, rfl, rfl⟩)
    · rw [← hpt]
      exact stays_of_referenced hG (hI.pushes p hp) (Or.inr ⟨p, hp, rfl⟩)
  pushes := by
    intro p hp
    rcases step_pushes hp with hold | hrow
    · exact stays_of_referenced hG (hI.pushes p hold) (Or.inr ⟨p, hold, rfl⟩)
    · exact hrow

/-- **Every tag resolves** as long as nothing that is referenced is deleted. -/
theorem tags_resolve (cfg : Config) (organizations : Organizations) (repositories : Repositories)
    (now : Int) (acts : List Action) (hG : Guarded (System.step cfg) Unreferenced
      (.idle (.fresh organizations repositories) now) acts) :
    AllResolve
      (run (System.step cfg) (.idle (.fresh organizations repositories) now) acts).store := by
  have hstart : Resolved (.idle (.fresh organizations repositories) now) :=
    ⟨fun t ht => absurd ht List.not_mem_nil, fun p hp => absurd hp List.not_mem_nil⟩
  exact (run_invariant (I := Resolved) (fun _ _ hI hG => hI.step hG) hstart hG).tags

def orderlyRun : List Action :=
  [.pushManifest "t" "r" "v1" mediaTypeOCIManifest document,
    .pushTag ⟨"t", "r", "v1", documentDigest⟩, .tick 10, .replicate, .sweepList "t" "r" 5 none,
    .sweepDelete 0 false, .graceList "", .graceDelete 0 false, .deleteManifest "t" "r" "v1",
    .deleteManifest "t" "r" documentDigest]

theorem orderly_run_resolves :
    Guarded (System.step oneDocument) Unreferenced oneRepository orderlyRun ∧
      AllResolve (run (System.step oneDocument) oneRepository orderlyRun).store := by
  have hG : Guarded (System.step oneDocument) Unreferenced oneRepository orderlyRun := by
    decide +kernel
  exact ⟨hG, tags_resolve oneDocument _ _ _ orderlyRun hG⟩

theorem tag_left_dangling :
    (¬ AllResolve (run (System.step oneDocument) oneRepository
        [.pushManifest "t" "r" "v1" mediaTypeOCIManifest document,
          .pushTag ⟨"t", "r", "v1", documentDigest⟩,
          .deleteManifest "t" "r" documentDigest]).store) ∧
      (¬ AllResolve (run (System.step oneDocument) oneRepository
        [.putManifest "t" "r" mediaTypeOCIManifest document, .tick 10,
          .pushManifest "t" "r" "v1" mediaTypeOCIManifest document, .sweepList "t" "r" 5 none,
          .pushTag ⟨"t", "r", "v1", documentDigest⟩, .sweepDelete 0 false]).store) ∧
      ¬ AllResolve (run (System.step oneDocument) oneRepository
        [.pushManifest "t" "r" "v1" mediaTypeOCIManifest document,
          .pushTag ⟨"t", "r", "v1", documentDigest⟩, .mark "t" 0, .tick 700000000000000, .replicate,
          .graceList "", .graceDelete 0 false]).store := by
  refine ⟨?_, ?_, ?_⟩
  · decide +kernel
  · decide +kernel
  · decide +kernel

end OciJanus.Gc.TagsResolve
