import OciJanus.Gc.Deleters

/-!
# The finaliser and the grace window

The condition on the mark is asked of the listing, which may be the replica's, and not of the row
that the delete finds.
-/

namespace OciJanus.Gc.GraceWindow

open Verified KeyedTable Run Sha256 Gc.Deleters Metadata List

/-- Marked, and the mark is older than the window. -/
def Overdue (cfg : Config) (now : Int) (m : Manifest) : Prop :=
  ∃ t ∈ m.retentionPendingDeleteAt, t < now - graceWindow cfg.retentionGraceDays
  deriving Decidable

/-- What the finaliser deletes is overdue when it is deleted. -/
def Honours (cfg : Config) (s : System) : Action → Prop
  | .graceDelete i fails =>
    ∀ m ∈ s.store.manifests.rows, Deletes s (s.step cfg (.graceDelete i fails)) m →
      Overdue cfg s.now m
  | _ => True

instance (cfg : Config) (s : System) (a : Action) : Decidable (Honours cfg s a) := by
  cases a <;> unfold Honours <;> infer_instance

/-- A push makes no new row where the finaliser has one listed. -/
def NotAnew (cfg : Config) (s : System) (tenantID repoID : String) (rawJSON : Bytes) : Prop :=
  s.store.manifests.get (repoID, cfg.digestOf rawJSON) = none →
    ⟨tenantID, repoID, cfg.digestOf rawJSON⟩ ∉ s.finalisers.flatten

/-- No row that is listed is cleared or made anew, and a listing reads the marks as they are. -/
def Undisturbed (cfg : Config) (s : System) : Action → Prop
  | .clear tenantID id =>
    ∀ m ∈ s.store.manifests.rows, m.id = id → m.tenantID = tenantID →
      Candidate.of m ∉ s.finalisers.flatten
  | .putManifest tenantID repoID _ rawJSON => NotAnew cfg s tenantID repoID rawJSON
  | .pushManifest tenantID repoID _ _ rawJSON => NotAnew cfg s tenantID repoID rawJSON
  | .graceList tenantID =>
    ∀ m ∈ listPendingDeleteManifests s.replica s.now tenantID
        (graceWindowSecs cfg.retentionGraceDays) cfg.maxGraceCandidatesPerRun,
      ∀ m' ∈ s.store.manifests.rows, Candidate.of m' = Candidate.of m →
        m'.retentionPendingDeleteAt = m.retentionPendingDeleteAt
  | _ => True

instance (cfg : Config) (s : System) (tenantID repoID : String) (rawJSON : Bytes) :
    Decidable (NotAnew cfg s tenantID repoID rawJSON) := by
  unfold NotAnew
  infer_instance

instance (cfg : Config) (s : System) (a : Action) : Decidable (Undisturbed cfg s a) := by
  cases a <;> unfold Undisturbed <;> infer_instance

section
variable {cfg : Config} {now : Int} {m m' : Manifest}

theorem Overdue.of_eq (h : Overdue cfg now m)
    (heq : m'.retentionPendingDeleteAt = m.retentionPendingDeleteAt) : Overdue cfg now m' := by
  unfold Overdue
  rwa [heq]

theorem Overdue.later (h : Overdue cfg now m) (elapsed : Nat) : Overdue cfg (now + elapsed) m := by
  obtain ⟨t, ht, hold⟩ := h
  exact ⟨t, ht, by omega⟩

theorem overdue_of_pastGrace (hdays : DaysFit cfg.retentionGraceDays)
    (h : PastGrace now (graceWindowSecs cfg.retentionGraceDays) m) : Overdue cfg now m := by
  obtain ⟨t, ht, hpast⟩ := h
  have hexact := graceWindowSecs_exact hdays
  refine ⟨t, ht, ?_⟩
  rw [← hexact]
  have hle : graceWindowSecs cfg.retentionGraceDays * second ≤
      max (graceWindowSecs cfg.retentionGraceDays) 0 * second :=
    Int.mul_le_mul_of_nonneg_right (le_max_left _ _) (by decide)
  omega

theorem Overdue.marked (h : Overdue cfg now m) (now' : Int) (tenantID : String) (id : Nat) :
    Overdue cfg now (markPending now' tenantID id m) := by
  obtain ⟨t, ht, hold⟩ := h
  refine ⟨t, ?_, hold⟩
  rw [Option.mem_def] at ht ⊢
  unfold markPending
  split_ifs
  · simp [ht]
  · exact ht

theorem of_markPending (tenantID : String) (id : Nat) :
    Candidate.of (markPending now tenantID id m) = Candidate.of m := by
  unfold markPending
  split_ifs
  · rfl
  · rfl

theorem of_clearPending (tenantID : String) (id : Nat) :
    Candidate.of (clearPending tenantID id m) = Candidate.of m := by
  unfold clearPending
  split_ifs
  · rfl
  · rfl

end

theorem putManifest_row {docs : Documents} {s s' : Store} {now : Int}
    {tenantID repoID digest mediaType : String} {rawJSON : Bytes}
    (h : Store.PutManifestEffect docs s s' now tenantID repoID digest mediaType rawJSON)
    {m' : Manifest} (hm' : m' ∈ s'.manifests.rows) :
    (∃ m ∈ s.manifests.rows, Candidate.of m = Candidate.of m' ∧
        m'.retentionPendingDeleteAt = m.retentionPendingDeleteAt) ∨
      (s.manifests.get (repoID, digest) = none ∧ Candidate.of m' = ⟨tenantID, repoID, digest⟩) := by
  have hget := s'.manifests.get_key hm'
  by_cases hk : (m'.repoID, m'.digest) = (repoID, digest)
  · obtain ⟨u, hu, htenant, _, _, hkept, _⟩ := h.row
    rw [hk, hu, Option.some.injEq] at hget
    subst hget
    obtain ⟨hrepo, hdigest⟩ := Prod.mk.inj hk
    cases hold : s.manifests.get (repoID, digest) with
    | none => exact Or.inr ⟨rfl, by rw [Candidate.of, htenant, hrepo, hdigest]⟩
    | some m =>
      obtain ⟨hmrepo, hmdigest⟩ := Store.manifests_get_key hold
      obtain ⟨_, hmtenant, _, hpending⟩ := hkept m hold
      left
      refine ⟨m, Table.mem_of_get hold, ?_, hpending⟩
      rw [Candidate.of, Candidate.of, hmtenant, hrepo, hdigest, hmrepo, hmdigest]
  · rw [h.others _ hk] at hget
    exact Or.inl ⟨m', Table.mem_of_get hget, rfl, rfl⟩

/-- The invariant: a listed row that is there is overdue. -/
def ListedOverdue (cfg : Config) (s : System) : Prop :=
  ∀ m ∈ s.store.manifests.rows, Candidate.of m ∈ s.finalisers.flatten → Overdue cfg s.now m

section
variable {cfg : Config} {s : System}

theorem ListedOverdue.frame (hI : ListedOverdue cfg s) {s' : System} (hnow : s'.now = s.now)
    (hlisted : ∀ c ∈ s'.finalisers.flatten, c ∈ s.finalisers.flatten)
    (hrows : ∀ m ∈ s'.store.manifests.rows, m ∈ s.store.manifests.rows) : ListedOverdue cfg s' := by
  intro m hm hc
  rw [hnow]
  exact hI m (hrows m hm) (hlisted _ hc)

theorem ListedOverdue.put (hI : ListedOverdue cfg s) {s' : System}
    {tenantID repoID mediaType : String} {rawJSON : Bytes}
    (h : Store.PutManifestEffect cfg.docs s.store s'.store s.now tenantID repoID
      (cfg.digestOf rawJSON) mediaType rawJSON)
    (hanew : NotAnew cfg s tenantID repoID rawJSON) (hnow : s'.now = s.now)
    (hlisted : s'.finalisers = s.finalisers) : ListedOverdue cfg s' := by
  intro m' hm' hc
  rw [hlisted] at hc
  rw [hnow]
  rcases putManifest_row h hm' with ⟨m, hm, hof, hpending⟩ | ⟨hnone, hof⟩
  · rw [← hof] at hc
    exact (hI m hm hc).of_eq hpending
  · rw [hof] at hc
    exact absurd hc (hanew hnone)

theorem ListedOverdue.step (hdays : DaysFit cfg.retentionGraceDays) (hI : ListedOverdue cfg s)
    {a : Action} (hG : Undisturbed cfg s a) :
    ListedOverdue cfg (s.step cfg a) := by
  cases a with
  | tick elapsed => exact fun m hm hc => (hI m hm hc).later elapsed
  | replicate | dropPush | sweepList => exact hI
  | putManifest tenantID repoID mediaType rawJSON =>
    rcases s.store.orSame_eq (s.store.putManifest cfg.docs s.now tenantID repoID
      (cfg.digestOf rawJSON) mediaType rawJSON) with heq | hok
    · exact hI.frame rfl (fun c hc => hc) (fun m hm => heq ▸ hm)
    · exact hI.put (Store.putManifest_ok hok) hG rfl rfl
  | pushManifest tenantID repoID tag mediaType rawJSON =>
    rw [System.step, System.pushManifest]
    cases hput : s.store.putManifest cfg.docs s.now tenantID repoID (cfg.digestOf rawJSON)
        mediaType rawJSON with
    | error e => exact hI
    | ok s' => exact hI.put (Store.putManifest_ok hput) hG rfl rfl
  | pushTag p =>
    rw [System.step]
    split_ifs
    · rcases s.store.orSame_eq (s.store.putTag p.tenantID p.repoID p.tag p.digest) with heq | hok
      · exact hI.frame rfl (fun c hc => hc) (fun m hm => heq ▸ hm)
      · exact hI.frame rfl (fun c hc => hc) (fun m hm => (Store.putTag_ok hok).manifests ▸ hm)
    · exact hI
  | deleteManifest tenantID repoID reference =>
    rcases s.store.orSame_eq (System.deleteReference s.store tenantID repoID reference) with
      heq | hok
    · exact hI.frame rfl (fun c hc => hc) (fun m hm => heq ▸ hm)
    · exact hI.frame rfl (fun c hc => hc) (fun m hm => deleteReference_rows hok hm)
  | mark tenantID id =>
    intro m' hm' hc
    obtain ⟨m, hm, rfl⟩ := mem_map.mp hm'
    rw [of_markPending] at hc
    exact (hI m hm hc).marked s.now tenantID id
  | clear tenantID id =>
    intro m' hm' hc
    obtain ⟨m, hm, rfl⟩ := mem_map.mp hm'
    rw [of_clearPending] at hc
    -- the guard: the row that is cleared is not listed, so this is another one
    have hne : ¬ (m.id = id ∧ m.tenantID = tenantID) := fun h => hG m hm h.1 h.2 hc
    rw [clearPending, if_neg hne]
    exact hI m hm hc
  | sweepDelete i fails =>
    exact hI.frame rfl (fun c hc => hc) (fun m hm => deleteNext_rows hm)
  | graceList tenantID =>
    intro m' hm' hc
    rw [System.step, flatten_cons, mem_append] at hc
    rcases hc with hnew | hold
    · obtain ⟨m, hm, hof⟩ := mem_map.mp hnew
      have hpast := (mem_listPendingDeleteManifests hm).2
      exact (overdue_of_pastGrace hdays hpast).of_eq (hG m hm m' hm' hof.symm)
    · exact hI m' hm' hold
  | graceDelete i fails =>
    exact hI.frame rfl (fun c hc => mem_flatten_of_modify_tail hc) (fun m hm => deleteNext_rows hm)

theorem ListedOverdue.honours (hI : ListedOverdue cfg s) (a : Action) : Honours cfg s a := by
  cases a with
  | graceDelete i fails =>
    intro m hm hdel
    obtain ⟨rest, hlisting⟩ := deleteNext_gone hm hdel.2
    exact hI m hm (mem_flatten_of_getD hlisting)
  | _ => trivial

end

/-- **Hard deletes honour the grace window** in an undisturbed run. -/
theorem hard_deletes_honour_grace (cfg : Config) (hdays : DaysFit cfg.retentionGraceDays)
    (store : Store) (now : Int) (acts : List Action)
    (hG : Guarded (System.step cfg) (Undisturbed cfg) (.idle store now) acts) :
    Guarded (System.step cfg) (Honours cfg) (.idle store now) acts := by
  have hstart : ListedOverdue cfg (.idle store now) := fun m hm hc => absurd hc not_mem_nil
  exact guarded_of_invariant (I := ListedOverdue cfg)
    (fun _ a hI hG => ⟨hI.step hdays hG, hI.honours a⟩) hstart hG

def markAndFinalise : List Action :=
  [.putManifest "t" "r" mediaTypeOCIManifest document, .mark "t" 0, .tick 700000000000000,
    .replicate, .graceList "", .graceDelete 0 false]

theorem mark_runs_out :
    Guarded (System.step oneDocument) (Undisturbed oneDocument) oneRepository markAndFinalise ∧
      Guarded (System.step oneDocument) (Honours oneDocument) oneRepository markAndFinalise := by
  have hG : Guarded (System.step oneDocument) (Undisturbed oneDocument) oneRepository
      markAndFinalise := by decide +kernel
  exact ⟨hG, hard_deletes_honour_grace oneDocument (by decide) _ _ markAndFinalise hG⟩

theorem cleared_mark_deleted :
    (¬ Guarded (System.step oneDocument) (Honours oneDocument) oneRepository
        [.putManifest "t" "r" mediaTypeOCIManifest document, .mark "t" 0, .tick 700000000000000,
          .replicate, .graceList "", .clear "t" 0, .graceDelete 0 false]) ∧
      (¬ Guarded (System.step oneDocument) (Honours oneDocument) oneRepository
        [.putManifest "t" "r" mediaTypeOCIManifest document, .mark "t" 0, .tick 700000000000000,
          .replicate, .graceList "", .deleteManifest "t" "r" documentDigest,
          .putManifest "t" "r" mediaTypeOCIManifest document, .graceDelete 0 false]) ∧
      ¬ Guarded (System.step oneDocument) (Honours oneDocument) oneRepository
        [.putManifest "t" "r" mediaTypeOCIManifest document, .mark "t" 0, .tick 700000000000000,
          .replicate, .clear "t" 0, .graceList "", .graceDelete 0 false] := by
  refine ⟨?_, ?_, ?_⟩
  · decide +kernel
  · decide +kernel
  · decide +kernel

end OciJanus.Gc.GraceWindow
