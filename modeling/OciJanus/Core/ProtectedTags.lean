import OciJanus.Core.TagWrites

/-!
# Tags that must not move

The invariant is `Informed`: what requests and caches hold about a protected tag would be read off
the tables just so.
-/

namespace OciJanus.Core.ProtectedTags

open Verified KeyedTable Run Sha256 Core.TagWrites Metadata Metadata.Promotion

inductive Flag where
  | tag
  | repository
  deriving DecidableEq

instance {P : Flag → Prop} [DecidablePred P] : Decidable (∀ flag, P flag) :=
  decidable_of_iff (P .tag ∧ P .repository) ⟨fun h flag => by
      cases flag with
      | tag => exact h.1
      | repository => exact h.2,
    fun h => ⟨h .tag, h .repository⟩⟩

variable {n : Nat}

def Protected (s : System n) : Flag → Tag → Prop
  | .tag, t => t.immutable = true ∧ s.tagSettled (t.repoID, t.name) = true
  | .repository, t =>
    (s.store.repositories.get t.repoID).any (·.immutableTags) = true ∧ s.repoSettled t.repoID = true

def KeepsProtected (cfg : Config) (s : System n) (a : Action n) : Prop :=
  ∀ flag, ∀ t ∈ s.store.tags.rows, Protected s flag t →
    ((s.step cfg a).store.tags.get (t.repoID, t.name)).map (·.manifestDigest) =
      some t.manifestDigest

def Targets (req : Push) (t : Tag) : Prop := req.repoID = t.repoID ∧ req.reference = t.name

def Agrees (flag : Flag) (t u : Tag) : Prop :=
  u.manifestDigest = t.manifestDigest ∧ (flag = .tag → u.immutable = true)

def Aware (flag : Flag) (t : Tag) : Pc → Prop
  | .cacheTag req u => Targets req t → Agrees flag t u
  | .getRepository req | .queryRepository req =>
    flag = .tag → Targets req t → req.digest = t.manifestDigest
  | .cacheRepository req r =>
    (flag = .tag → Targets req t → req.digest = t.manifestDigest) ∧
      (flag = .repository → req.repoID = t.repoID → r.immutableTags = true)
  | .putManifest req | .putTag req => Targets req t → req.digest = t.manifestDigest
  | .destinationTag input dst _ created =>
    flag = .repository → created = false → dst.id = t.repoID → input.dstTag = t.name →
      dst.immutableTags = true
  | .upsertTag input dst digest created =>
    created = false → dst.id = t.repoID → input.dstTag = t.name → digest = t.manifestDigest
  | _ => True

structure Informed (s : System n) (flag : Flag) (t : Tag) : Prop where
  pcs : ∀ i, Aware flag t (s.pcs i)
  tagCache : ∀ u ∈ s.tagCache.get s.now (t.tenantID, t.repoID, t.name), Agrees flag t u
  repoCache : flag = .repository →
    ∀ r ∈ s.repoCache.get s.now (t.tenantID, t.repoID), r.immutableTags = true

def WasProtected (s : System n) (flag : Flag) (t : Tag) : Prop :=
  ∃ u ∈ s.store.tags.rows, (u.repoID, u.name) = (t.repoID, t.name) ∧ Protected s flag u

def SetInTime (cfg : Config) (s : System n) (a : Action n) : Prop :=
  ∀ flag, ∀ t ∈ (s.step cfg a).store.tags.rows, Protected (s.step cfg a) flag t →
    ¬ WasProtected s flag t → Informed (s.step cfg a) flag t

instance (s : System n) (flag : Flag) (t : Tag) : Decidable (Protected s flag t) := by
  cases flag <;> exact instDecidableAnd

deriving instance Decidable for KeepsProtected

deriving instance Decidable for Targets

deriving instance Decidable for Agrees

instance (flag : Flag) (t : Tag) (pc : Pc) : Decidable (Aware flag t pc) := by
  cases pc <;> unfold Aware <;> infer_instance

instance (s : System n) (flag : Flag) (t : Tag) : Decidable (Informed s flag t) :=
  decidable_of_iff ((∀ i, Aware flag t (s.pcs i)) ∧
      (∀ u ∈ s.tagCache.get s.now (t.tenantID, t.repoID, t.name), Agrees flag t u) ∧
      (flag = .repository →
        ∀ r ∈ s.repoCache.get s.now (t.tenantID, t.repoID), r.immutableTags = true))
    ⟨fun h => ⟨h.1, h.2.1, h.2.2⟩, fun h => ⟨h.pcs, h.tagCache, h.repoCache⟩⟩

deriving instance Decidable for WasProtected

deriving instance Decidable for SetInTime

def Owned (s : Store) (tenantID repoID : String) : Prop :=
  ∃ r, s.repositories.get repoID = some r ∧ r.tenantID = tenantID

def Placed (s : Store) : Pc → Prop
  | .getTag req | .queryTag req | .cacheTag req _ | .getRepository req | .queryRepository req
  | .cacheRepository req _ | .putManifest req | .putTag req => Owned s req.tenantID req.repoID
  | .destinationTag input dst _ created | .upsertTag input dst _ created =>
    dst.tenantID = input.tenantID ∧ (created = false → Owned s input.tenantID dst.id)
  | _ => True

structure Tenanted (s : System n) : Prop where
  tags : ∀ t ∈ s.store.tags.rows, Owned s.store t.tenantID t.repoID
  pcs : ∀ i, Placed s.store (s.pcs i)

variable {tenantID : String}

theorem getRepository_isSome {s : Store} {repoID : String} :
    (getRepository s tenantID repoID).isSome ↔ Owned s tenantID repoID := by
  unfold getRepository Owned
  cases s.repositories.get repoID with
  | none => simp
  | some r => simp [Option.filter]

theorem Owned.tenant_eq {s : Store} {tenantID' repoID : String}
    (h : Owned s tenantID repoID) (h' : Owned s tenantID' repoID) : tenantID = tenantID' := by
  obtain ⟨r, hr, htenant⟩ := h
  obtain ⟨r', hr', htenant'⟩ := h'
  rw [hr, Option.some.injEq] at hr'
  rw [← htenant, ← htenant', hr']

theorem getTag_of_owned {s : Store} {t : Tag} (ht : t ∈ s.tags.rows)
    (hown : Owned s t.tenantID t.repoID) (h : Owned s tenantID t.repoID) :
    s.getTag tenantID t.repoID t.name = some t :=
  Store.getTag_eq_some.mpr ⟨s.tags.get_key ht, hown.tenant_eq h⟩

section
variable {cfg : Config} {s : System n} {flag : Flag} {t : Tag}

variable {req : Push} {input : PromoteTagInput} {dst : RepositoryRow}
    {digest tenantID repoID name : String} {created : Bool} {s' : Store}

theorem aware_afterTag {u : Tag} (h : Targets req t → Agrees flag t u) :
    Aware flag t (afterTag req u) := by
  unfold afterTag
  split_ifs with hsame hpin
  · intro htarget
    rw [← hsame, (h htarget).1]
  · trivial
  · intro hflag htarget
    exact absurd ((h htarget).2 hflag) hpin

theorem aware_afterRepository {r : RepositoryRow}
    (htag : flag = .tag → Targets req t → req.digest = t.manifestDigest)
    (hrepo : flag = .repository → req.repoID = t.repoID → r.immutableTags = true) :
    Aware flag t (afterRepository req r) := by
  unfold afterRepository
  split_ifs with himmutable
  · trivial
  · intro htarget
    cases flag with
    | tag => exact htag rfl htarget
    | repository => exact absurd (hrepo rfl htarget.1) himmutable

theorem Protected.immutableTags (h : Protected s .repository t) {r : RepositoryRow}
    (hr : s.store.repositories.get t.repoID = some r) : r.immutableTags = true := by
  have hany := h.1
  rwa [hr, Option.any_some] at hany

theorem digest_of_not_blocked (hget : s.store.getTag input.tenantID dst.id input.dstTag = some t)
    (hblocked : ¬ blocked s.store input dst digest = true)
    (hflag : dst.immutableTags = true ∨ t.immutable = true) : digest = t.manifestDigest := by
  by_contra hne
  apply hblocked
  rw [blocked, hget, Option.any_some, decide_eq_true_eq]
  exact ⟨Ne.symm hne, hflag⟩

theorem tenant_of_push (hown : Owned s.store t.tenantID t.repoID)
    (hplaced : Owned s.store req.tenantID req.repoID) (hrepo : req.repoID = t.repoID) :
    req.tenantID = t.tenantID := by
  rw [hrepo] at hplaced
  exact hplaced.tenant_eq hown

theorem aware_getTag (hown : Owned s.store t.tenantID t.repoID)
    (hplaced : Owned s.store req.tenantID req.repoID) (hI : Informed s flag t) :
    Aware flag t (s.next cfg (.getTag req)) := by
  rw [System.next]
  cases hget : s.tagCache.get s.now req.tagKey with
  | none => trivial
  | some u =>
    apply aware_afterTag
    intro htarget
    have htenant := tenant_of_push hown hplaced htarget.1
    rw [Push.tagKey, htenant, htarget.1, htarget.2] at hget
    exact hI.tagCache u hget

theorem aware_queryTag (ht : t ∈ s.store.tags.rows)
    (hown : Owned s.store t.tenantID t.repoID) (hplaced : Owned s.store req.tenantID req.repoID)
    (hP : Protected s flag t) : Aware flag t (s.next cfg (.queryTag req)) := by
  have hfound : Targets req t → s.store.getTag req.tenantID req.repoID req.reference = some t := by
    rintro ⟨hrepo, hname⟩
    rw [hrepo] at hplaced ⊢
    rw [hname]
    exact getTag_of_owned ht hown hplaced
  rw [System.next]
  cases hget : s.store.getTag req.tenantID req.repoID req.reference with
  | none =>
    intro htarget
    cases hget.symm.trans (hfound htarget)
  | some u =>
    intro htarget
    cases hget.symm.trans (hfound htarget)
    exact ⟨rfl, fun hflag => (hflag ▸ hP).1⟩

theorem aware_getRepository (hown : Owned s.store t.tenantID t.repoID)
    (hplaced : Owned s.store req.tenantID req.repoID) (hI : Informed s flag t)
    (haware : Aware flag t (.getRepository req)) :
    Aware flag t (s.next cfg (.getRepository req)) := by
  rw [System.next]
  cases hget : s.repoCache.get s.now req.repoKey with
  | none => exact haware
  | some r =>
    apply aware_afterRepository haware
    intro hflag hrepo
    rw [Push.repoKey, tenant_of_push hown hplaced hrepo, hrepo] at hget
    exact hI.repoCache hflag r hget

theorem aware_queryRepository (hplaced : Owned s.store req.tenantID req.repoID)
    (hP : Protected s flag t) (haware : Aware flag t (.queryRepository req)) :
    Aware flag t (s.next cfg (.queryRepository req)) := by
  obtain ⟨r, hr, htenant⟩ := hplaced
  have hget : getRepository s.store req.tenantID req.repoID = some r := by
    simp [getRepository, hr, Option.filter, htenant]
  rw [System.next, hget]
  refine ⟨haware, ?_⟩
  intro hflag hrepo
  subst hflag
  rw [hrepo] at hr
  exact hP.immutableTags hr

theorem aware_destinationRepo {newID : String} (hP : Protected s flag t) :
    Aware flag t (s.next cfg (.destinationRepo input newID digest)) := by
  rw [System.next]
  cases hfind : Promotion.destinationRepo s.store input with
  | none =>
    show Aware flag t (if input.createIfMissing then _ else _)
    split_ifs <;> trivial
  | some dst =>
    intro hflag _ hid _
    subst hflag
    have hget : s.store.repositories.get dst.id = some dst :=
      s.store.repositories.get_key (List.mem_of_find?_eq_some hfind)
    rw [hid] at hget
    exact hP.immutableTags hget

theorem aware_destinationTag (ht : t ∈ s.store.tags.rows) (hown : Owned s.store t.tenantID t.repoID)
    (hplaced : Placed s.store (.destinationTag input dst digest created))
    (hP : Protected s flag t) (haware : Aware flag t (.destinationTag input dst digest created)) :
    Aware flag t (s.next cfg (.destinationTag input dst digest created)) := by
  rw [System.next]
  split_ifs with hblocked
  · trivial
  · intro hcreated hid hname
    have hdst := hplaced.2 hcreated
    rw [hid] at hdst
    have hget : s.store.getTag input.tenantID dst.id input.dstTag = some t := by
      rw [hid, hname]
      exact getTag_of_owned ht hown hdst
    apply digest_of_not_blocked hget hblocked
    cases flag with
    | tag => exact Or.inr hP.1
    | repository => exact Or.inl (haware rfl hcreated hid hname)

theorem next_aware (hT : Tenanted s) (ht : t ∈ s.store.tags.rows) (hP : Protected s flag t)
    (hI : Informed s flag t) (i : Fin n) : Aware flag t (s.next cfg (s.pcs i)) := by
  have haware := hI.pcs i
  have hplaced := hT.pcs i
  have hown := hT.tags t ht
  generalize s.pcs i = pc at haware hplaced
  cases pc with
  | idle | putTag | upsertTag | tagUpdated | bustRepositoryCache | repositoryUpdated => trivial
  | getTag req => exact aware_getTag hown hplaced hI
  | queryTag req => exact aware_queryTag ht hown hplaced hP
  | cacheTag req u => exact aware_afterTag haware
  | getRepository req => exact aware_getRepository hown hplaced hI haware
  | queryRepository req => exact aware_queryRepository hplaced hP haware
  | cacheRepository req r => exact aware_afterRepository haware.1 haware.2
  | putManifest req =>
    rw [System.next]
    split
    · exact haware
    · trivial
  | destinationRepo input newID digest => exact aware_destinationRepo hP
  | createRepo input newID digest org =>
    rw [System.next]
    split
    · exact fun _ hcreated => nomatch hcreated
    · trivial
  | destinationTag input dst digest created => exact aware_destinationTag ht hown hplaced hP haware
  | sourceTag | destinationOrg =>
    rw [System.next]
    split <;> trivial
  | updateTag | updateRepository =>
    rw [System.next]
    split_ifs <;> trivial

theorem putTag_keeps {s : Store} {t : Tag}
    (h : Store.PutTagEffect s s' tenantID repoID name digest) (ht : t ∈ s.tags.rows)
    (hsame : repoID = t.repoID → name = t.name → digest = t.manifestDigest) :
    s'.tags.get (t.repoID, t.name) = some t := by
  have hold := s.tags.get_key ht
  by_cases hk : (t.repoID, t.name) = (repoID, name)
  · obtain ⟨u, hu, hdigest, hkept, _⟩ := h.row
    obtain ⟨hurepo, huname⟩ := Store.tags_get_key hu
    rw [hk] at hold
    obtain ⟨htenant, himmutable⟩ := hkept t hold
    obtain ⟨hrepo, hname⟩ := Prod.mk.inj hk
    rw [hk, hu, Option.some.injEq, Tag.mk.injEq]
    exact ⟨hurepo.trans hrepo.symm, htenant, huname.trans hname.symm,
      hdigest.trans (hsame hrepo.symm hname.symm), himmutable⟩
  · rw [h.others _ hk]
    exact hold

theorem insertRepo_owned {s : Store} (h : insertRepo s dst = some s') :
    Owned s' dst.tenantID dst.id ∧
      ∀ tenantID repoID, Owned s tenantID repoID → Owned s' tenantID repoID := by
  obtain ⟨_, hrows, _⟩ := insertRepo_ok h
  constructor
  · exact ⟨dst, s'.repositories.get_key (by rw [hrows]; simp), rfl⟩
  · rintro tenantID repoID ⟨r, hr, htenant⟩
    obtain ⟨hmem, hid⟩ := Table.get_eq_some_iff.mp hr
    exact ⟨r, Table.get_eq_some_iff.mpr ⟨by rw [hrows]; simp [hmem], hid⟩, htenant⟩

def Stays (t : Tag) (s : Store) : Prop :=
  ∃ b, s.tags.get (t.repoID, t.name) = some { t with immutable := b }

theorem commit_stays (ht : t ∈ s.store.tags.rows)
    (haware : Aware flag t (.upsertTag input dst digest created)) :
    Stays t (s.commit input dst digest created) := by
  have hsame : Stays t s.store := ⟨t.immutable, s.store.tags.get_key ht⟩
  unfold System.commit
  by_cases hcreated : created = true
  · rw [if_pos hcreated]
    cases hins : insertRepo s.store dst with
    | none => exact hsame
    | some withRepo =>
      obtain ⟨hnone, _, _, _, htags⟩ := insertRepo_ok hins
      -- the repository is new, so it has no tag yet
      have hother : dst.id ≠ t.repoID := fun hid =>
        s.store.tags_repo t ht (by rw [← hid]; exact hnone)
      apply Store.orSame_of hsame
      intro s' hok
      exact ⟨t.immutable, putTag_keeps (Store.putTag_ok hok) (by rw [htags]; exact ht)
        (fun hid => absurd hid hother)⟩
  · rw [if_neg hcreated]
    apply Store.orSame_of hsame
    intro s' hok
    exact ⟨t.immutable, putTag_keeps (Store.putTag_ok hok) ht (haware (by simpa using hcreated))⟩

variable {pc : Pc}

theorem write_stays (ht : t ∈ s.store.tags.rows) (haware : Aware flag t pc) :
    Stays t (s.write cfg pc) := by
  have hold := s.store.tags.get_key ht
  have hsame : Stays t s.store := ⟨t.immutable, hold⟩
  cases pc with
  | putManifest req =>
    refine Store.orSame_of hsame fun s' hok => ?_
    rw [Stays, (Store.putManifest_ok hok).tags]
    exact hsame
  | putTag req =>
    refine Store.orSame_of hsame fun s' hok => ?_
    exact ⟨t.immutable, putTag_keeps (Store.putTag_ok hok) ht
      (fun hrepo hname => haware ⟨hrepo, hname⟩)⟩
  | upsertTag input dst digest created => exact commit_stays ht haware
  | updateTag tenantID repoID name immutable =>
    refine Store.orSame_of hsame fun s' hok => ?_
    obtain ⟨b, hb⟩ := setImmutable_eq tenantID repoID name immutable t
    rw [Stays, (updateTagImmutable_ok hok).2, hold, Option.map_some, hb]
    exact ⟨b, rfl⟩
  | updateRepository tenantID repoID immutableTags =>
    refine Store.orSame_of hsame fun s' hok => ?_
    rw [Stays, (updateRepositoryImmutability_ok hok).1]
    exact hsame
  | _ => exact hsame

structure KeepsTenants (s s' : Store) : Prop where
  owned : ∀ tenantID repoID, Owned s tenantID repoID → Owned s' tenantID repoID
  tags : ∀ t ∈ s'.tags.rows, (∃ u ∈ s.tags.rows, u.tenantID = t.tenantID ∧ u.repoID = t.repoID) ∨
      Owned s' t.tenantID t.repoID

theorem KeepsTenants.of_eq {s : Store} (hrepos : s'.repositories = s.repositories)
    (htags : s'.tags = s.tags) : KeepsTenants s s' where
  owned _ _ h := by rwa [Owned, hrepos]
  tags t ht := Or.inl ⟨t, htags ▸ ht, rfl, rfl⟩

theorem KeepsTenants.refl (s : Store) : KeepsTenants s s := .of_eq rfl rfl

theorem KeepsTenants.putTag {s : Store}
    (h : Store.PutTagEffect s s' tenantID repoID name digest) (hown : Owned s tenantID repoID) :
    KeepsTenants s s' where
  owned _ _ h' := by rwa [Owned, h.repositories]
  tags t ht := by
    have hget := s'.tags.get_key ht
    by_cases hk : (t.repoID, t.name) = (repoID, name)
    · obtain ⟨u, hu, _, hkept, hnew⟩ := h.row
      rw [hk, hu, Option.some.injEq] at hget
      subst hget
      obtain ⟨hrepo, _⟩ := Prod.mk.inj hk
      cases hold : s.tags.get (repoID, name) with
      | none =>
        right
        rwa [(hnew hold).1, hrepo, Owned, h.repositories]
      | some old =>
        left
        refine ⟨old, Table.mem_of_get hold, (hkept old hold).1.symm, ?_⟩
        rw [(Store.tags_get_key hold).1, hrepo]
    · rw [h.others _ hk] at hget
      exact Or.inl ⟨t, Table.mem_of_get hget, rfl, rfl⟩

theorem commit_keepsTenants (hplaced : Placed s.store (.upsertTag input dst digest created)) :
    KeepsTenants s.store (s.commit input dst digest created) := by
  unfold System.commit
  by_cases hcreated : created = true
  · rw [if_pos hcreated]
    cases hins : insertRepo s.store dst with
    | none => exact .refl _
    | some withRepo =>
      obtain ⟨hdst, hkept⟩ := insertRepo_owned hins
      obtain ⟨_, _, _, _, htags⟩ := insertRepo_ok hins
      apply Store.orSame_of (.refl _)
      intro s' hok
      rw [hplaced.1] at hdst
      have hput := KeepsTenants.putTag (Store.putTag_ok hok) hdst
      exact ⟨fun a b h => hput.owned a b (hkept a b h), fun t ht => htags ▸ hput.tags t ht⟩
  · rw [if_neg hcreated]
    apply Store.orSame_of (.refl _)
    intro s' hok
    exact .putTag (Store.putTag_ok hok) (hplaced.2 (by simpa using hcreated))

theorem KeepsTenants.updateTag {s : Store} {immutable : Bool}
    (h : updateTagImmutable s tenantID repoID name immutable = .ok s') : KeepsTenants s s' where
  owned _ _ h' := by rwa [Owned, (updateTagImmutable_ok h).1]
  tags t ht := by
    have hget := s'.tags.get_key ht
    rw [(updateTagImmutable_ok h).2, Option.map_eq_some_iff] at hget
    obtain ⟨u, hu, rfl⟩ := hget
    obtain ⟨b, hb⟩ := setImmutable_eq tenantID repoID name immutable u
    rw [hb]
    exact Or.inl ⟨u, Table.mem_of_get hu, rfl, rfl⟩

theorem KeepsTenants.updateRepository {s : Store} {immutableTags : Bool}
    (h : updateRepositoryImmutability s tenantID repoID immutableTags = .ok s') :
    KeepsTenants s s' where
  owned := by
    rintro _ _ ⟨r, hr, htenant⟩
    obtain ⟨b, hb⟩ := setImmutableTags_eq tenantID repoID immutableTags r
    refine ⟨{ r with immutableTags := b }, ?_, htenant⟩
    rw [(updateRepositoryImmutability_ok h).2, hr, Option.map_some, hb]
  tags t ht := Or.inl ⟨t, (updateRepositoryImmutability_ok h).1 ▸ ht, rfl, rfl⟩

theorem write_keepsTenants (hplaced : Placed s.store pc) :
    KeepsTenants s.store (s.write cfg pc) := by
  cases pc with
  | putManifest req =>
    refine Store.orSame_of (.refl _) fun s' hok => ?_
    exact .of_eq (Store.putManifest_ok hok).repositories (Store.putManifest_ok hok).tags
  | putTag req =>
    refine Store.orSame_of (.refl _) fun s' hok => ?_
    exact .putTag (Store.putTag_ok hok) hplaced
  | upsertTag input dst digest created => exact commit_keepsTenants hplaced
  | updateTag tenantID repoID name immutable =>
    refine Store.orSame_of (.refl _) fun s' hok => ?_
    exact .updateTag hok
  | updateRepository tenantID repoID immutableTags =>
    refine Store.orSame_of (.refl _) fun s' hok => ?_
    exact .updateRepository hok
  | _ => exact .refl _

theorem Placed.mono {s : Store} (h : ∀ a b, Owned s a b → Owned s' a b)
    (hplaced : Placed s pc) : Placed s' pc := by
  cases pc with
  | destinationTag input dst digest created | upsertTag input dst digest created =>
    exact ⟨hplaced.1, fun hcreated => h _ _ (hplaced.2 hcreated)⟩
  | getTag | queryTag | cacheTag | getRepository | queryRepository | cacheRepository
  | putManifest | putTag => exact h _ _ hplaced
  | _ => trivial

theorem placed_afterTag {store : Store} (h : Owned store req.tenantID req.repoID)
    (u : Tag) : Placed store (afterTag req u) := by
  unfold afterTag
  split_ifs
  · exact h
  · trivial
  · exact h

theorem placed_afterRepository {store : Store}
    (h : Owned store req.tenantID req.repoID) (r : RepositoryRow) :
    Placed store (afterRepository req r) := by
  unfold afterRepository
  split_ifs
  · trivial
  · exact h

theorem next_placed (h : Placed s.store pc) : Placed s.store (s.next cfg pc) := by
  cases pc with
  | idle | putTag | upsertTag | tagUpdated | bustRepositoryCache | repositoryUpdated => trivial
  | getTag req =>
    rw [System.next]
    split
    · exact placed_afterTag h _
    · exact h
  | cacheTag req u => exact placed_afterTag h u
  | getRepository req =>
    rw [System.next]
    split
    · exact placed_afterRepository h _
    · exact h
  | cacheRepository req r => exact placed_afterRepository h r
  | queryTag req | queryRepository req =>
    rw [System.next]
    split <;> exact h
  | putManifest req =>
    rw [System.next]
    split
    · exact h
    · trivial
  | destinationRepo input newID digest =>
    rw [System.next]
    cases hfind : Promotion.destinationRepo s.store input with
    | none =>
      show Placed s.store (if input.createIfMissing then _ else _)
      split_ifs <;> trivial
    | some dst =>
      have hmatch := List.find?_some hfind
      have htenant : dst.tenantID = input.tenantID := (of_decide_eq_true hmatch).1
      have hget : s.store.repositories.get dst.id = some dst :=
        s.store.repositories.get_key (List.mem_of_find?_eq_some hfind)
      exact ⟨htenant, fun _ => ⟨dst, hget, htenant⟩⟩
  | createRepo input newID digest org =>
    rw [System.next]
    split
    · exact ⟨rfl, fun hcreated => absurd hcreated (by decide)⟩
    · trivial
  | destinationTag input dst digest created =>
    rw [System.next]
    split_ifs
    · trivial
    · exact h
  | sourceTag | destinationOrg =>
    rw [System.next]
    split <;> trivial
  | updateTag | updateRepository =>
    rw [System.next]
    split_ifs <;> trivial

theorem start_placed {req : Request} (h : req.arrives s.store = true) :
    Placed s.store (req.start cfg) := by
  cases req with
  | push tenantID repoID reference mediaType rawJSON => exact getRepository_isSome.mp h
  | _ => trivial

theorem Tenanted.advance (hT : Tenanted s) (i : Fin n) : Tenanted (s.advance cfg i) := by
  have hkeeps : KeepsTenants s.store (s.write cfg (s.pcs i)) := write_keepsTenants (hT.pcs i)
  constructor
  · intro t ht
    rcases hkeeps.tags t ht with ⟨u, hu, htenant, hrepo⟩ | hown
    · rw [← htenant, ← hrepo]
      exact hkeeps.owned _ _ (hT.tags u hu)
    · exact hown
  · exact (Function.forall_update_iff s.pcs fun _ pc => Placed _ pc).mpr
      ⟨(next_placed (hT.pcs i)).mono hkeeps.owned, fun j _ => (hT.pcs j).mono hkeeps.owned⟩

structure Sound (s : System n) : Prop where
  tenanted : Tenanted s
  informed : ∀ flag, ∀ t ∈ s.store.tags.rows, Protected s flag t → Informed s flag t

theorem Informed.advance (hT : Tenanted s) (ht : t ∈ s.store.tags.rows) (hP : Protected s flag t)
    (hI : Informed s flag t) (i : Fin n) : Informed (s.advance cfg i) flag t where
  pcs := (Function.forall_update_iff s.pcs fun _ => Aware flag t).mpr
    ⟨next_aware hT ht hP hI i, fun j _ => hI.pcs j⟩
  tagCache := by
    show ∀ u ∈ (s.cacheTags (s.pcs i)).get s.now (t.tenantID, t.repoID, t.name), Agrees flag t u
    have haware := hI.pcs i
    cases hpc : s.pcs i with
    | cacheTag req u =>
      intro v hv
      rw [hpc] at haware
      rcases ExpiringStore.Store.get_set_eq_some hv with ⟨hkey, rfl⟩ | hold
      · rw [Push.tagKey, Prod.mk.injEq, Prod.mk.injEq] at hkey
        exact haware ⟨hkey.2.1.symm, hkey.2.2.symm⟩
      · exact hI.tagCache v hold
    | _ => exact hI.tagCache
  repoCache := by
    intro hflag
    show ∀ r ∈ (s.cacheRepos (s.pcs i)).get s.now (t.tenantID, t.repoID), r.immutableTags = true
    have haware := hI.pcs i
    cases hpc : s.pcs i with
    | cacheRepository req r =>
      intro v hv
      rw [hpc] at haware
      rcases ExpiringStore.Store.get_set_eq_some hv with ⟨hkey, rfl⟩ | hold
      · rw [Push.repoKey, Prod.mk.injEq] at hkey
        exact haware.2 hflag hkey.2.symm
      · exact hI.repoCache hflag v hold
    | bustRepositoryCache tenantID repoID immutableTags =>
      exact fun r hr => hI.repoCache hflag r (ExpiringStore.Store.get_del_eq_some hr)
    | _ => exact hI.repoCache hflag

theorem Sound.stays (hS : Sound s) (ht : t ∈ s.store.tags.rows) (hP : Protected s flag t)
    (a : Action n) : Stays t (s.step cfg a).store ∧ Informed (s.step cfg a) flag t := by
  have hsame : Stays t s.store := ⟨t.immutable, s.store.tags.get_key ht⟩
  have hI := hS.informed flag t ht hP
  cases a with
  | tick elapsed =>
    have hle : s.now ≤ s.now + elapsed := by omega
    exact ⟨hsame, hI.pcs, fun u hu => hI.tagCache u (ExpiringStore.Store.get_antitone hle hu),
      fun hflag r hr => hI.repoCache hflag r (ExpiringStore.Store.get_antitone hle hr)⟩
  | call i req =>
    rw [System.step]
    split_ifs
    · have hstart : Aware flag t (req.start cfg) := by cases req <;> trivial
      exact ⟨hsame, (Function.forall_update_iff s.pcs fun _ => Aware flag t).mpr
        ⟨hstart, fun j _ => hI.pcs j⟩, hI.tagCache, hI.repoCache⟩
    · exact ⟨hsame, hI⟩
  | advance i => exact ⟨write_stays ht (hI.pcs i), hI.advance hS.tenanted ht hP i⟩

theorem Tenanted.step (hT : Tenanted s) (a : Action n) : Tenanted (s.step cfg a) := by
  cases a with
  | tick elapsed => exact ⟨hT.tags, hT.pcs⟩
  | call i req =>
    rw [System.step]
    split_ifs with hcall
    · rw [Bool.and_eq_true] at hcall
      exact ⟨hT.tags, (Function.forall_update_iff s.pcs fun _ => Placed s.store).mpr
        ⟨start_placed hcall.2, fun j _ => hT.pcs j⟩⟩
    · exact hT
  | advance i => exact hT.advance i

theorem Sound.step (hS : Sound s) {a : Action n} (hG : SetInTime cfg s a) :
    Sound (s.step cfg a) where
  tenanted := hS.tenanted.step a
  informed := by
    intro flag t' ht' hP'
    by_cases hwas : WasProtected s flag t'
    · obtain ⟨t, ht, hkey, hP⟩ := hwas
      obtain ⟨⟨b, hget⟩, hI⟩ := hS.stays ht hP a
      rw [hkey, (s.step cfg a).store.tags.get_key ht', Option.some.injEq] at hget
      -- all but the pin of it is as it was, and of the pin nothing is asked
      rw [hget]
      exact ⟨hI.pcs, hI.tagCache, hI.repoCache⟩
    · exact hG flag t' ht' hP' hwas

theorem Sound.keepsProtected (hS : Sound s) (a : Action n) : KeepsProtected cfg s a := by
  intro flag t ht hP
  obtain ⟨b, hget⟩ := (hS.stays ht hP a).1
  rw [hget, Option.map_some]

end

/-- **A protected tag never moves.** -/
theorem protected_tags_stay (cfg : Config) (organizations : Organizations)
    (repositories : Repositories) (now : Int) (acts : List (Action n))
    (hG : Guarded (System.step cfg) (SetInTime cfg)
      (.idle (.fresh organizations repositories) now) acts) :
    Guarded (System.step cfg) (KeepsProtected cfg)
      (.idle (.fresh organizations repositories) now) acts := by
  have hstart : Sound (.idle (.fresh organizations repositories) now : System n) :=
    { tenanted := ⟨fun t ht => absurd ht List.not_mem_nil, fun _ => trivial⟩
      informed := fun flag t ht => absurd ht List.not_mem_nil }
  exact guarded_of_invariant (I := Sound)
    (fun _ a hS hG => ⟨hS.step hG, hS.keepsProtected a⟩) hstart hG

def twoDocuments : Config where
  docs := indexDocuments
  digestOf rawJSON := if rawJSON = [1] then "sha256:a" else "sha256:b"

def oneRepository (immutableTags : Bool) : System 2 :=
  .idle (.fresh (.single ⟨"o", "t", "org"⟩) (.single ⟨"r", "o", "t", "app", immutableTags, 0, 0⟩)) 0

def here : Fin 2 := ⟨0, Nat.two_pos⟩

def there : Fin 2 := ⟨1, Nat.one_lt_two⟩

def alone (i : Fin 2) (req : Request) : List (Action 2) :=
  .call i req :: List.replicate 10 (.advance i)

def pushV1 (rawJSON : Bytes) : Request :=
  .push "t" "r" "v1" mediaTypeOCIManifest rawJSON

def pushPinPush : List (Action 2) :=
  alone here (pushV1 [1]) ++ alone there (.updateTagImmutable "t" "r" "v1" true) ++
    alone here (pushV1 [2])

theorem pinned_tag_stays :
    Guarded (System.step twoDocuments) (SetInTime twoDocuments) (oneRepository false) pushPinPush ∧
      Guarded (System.step twoDocuments) (KeepsProtected twoDocuments) (oneRepository false)
        pushPinPush := by
  have hG : Guarded (System.step twoDocuments) (SetInTime twoDocuments) (oneRepository false)
      pushPinPush := by decide +kernel
  exact ⟨hG, protected_tags_stay twoDocuments _ _ _ pushPinPush hG⟩

theorem protected_tag_moved :
    (¬ Guarded (System.step twoDocuments) (KeepsProtected twoDocuments) (oneRepository false)
        (alone here (pushV1 [1]) ++ alone here (pushV1 [1]) ++
          alone there (.updateTagImmutable "t" "r" "v1" true) ++ alone here (pushV1 [2]))) ∧
      (¬ Guarded (System.step twoDocuments) (KeepsProtected twoDocuments) (oneRepository false)
        (alone here (pushV1 [1]) ++ alone here (.push "t" "r" "v2" mediaTypeOCIManifest [2]) ++
          [.call here
              (.promoteTag ⟨"t", "org", "app", "v2", "org", "app", "v1", none, "", false⟩ ""),
            .advance here, .advance here, .advance here] ++
          alone there (.updateTagImmutable "t" "r" "v1" true) ++ [.advance here])) ∧
      ¬ Guarded (System.step twoDocuments) (KeepsProtected twoDocuments) (oneRepository true)
        ([.call here (pushV1 [1]), .call there (pushV1 [2])] ++
          List.replicate 2 (.advance here) ++ List.replicate 2 (.advance there) ++
          List.replicate 2 (.advance here) ++ List.replicate 2 (.advance there)) := by
  refine ⟨?_, ?_, ?_⟩
  · decide +kernel
  · decide +kernel
  · decide +kernel

end OciJanus.Core.ProtectedTags
