import OciJanus.Core.TagList
import OciJanus.Metadata.Names

/-!
# Merging a pull request

The namespace is promoted tag by tag and then deleted, with its manifest rows. Nothing else writes,
and a replica that serves the lists has caught up with the primary.
-/

namespace OciJanus.Metadata.PrMerge

open Verified GoStrings KeyedTable Run Metadata Metadata.Names Metadata.Promotion List
open Verified.Sha256 (Bytes)
open Core.TagList (Collation TagRow listTags tagNames)

def orgHit (tenantID orgID : String) (o : Organization) : Bool :=
  o.id = orgID ∧ o.tenantID = tenantID

def repoHit (s : Store) (tenantID orgID : String) (r : RepositoryRow) : Bool :=
  (s.organizations.get r.orgID).any (orgHit tenantID orgID)

def rowHit (s : Store) (tenantID orgID repoID : String) : Bool :=
  (s.repositories.get repoID).any (repoHit s tenantID orgID)

theorem get_of_rowHit {s : Store} {tenantID orgID repoID : String}
    (hget : s.repositories.get repoID ≠ none) (hkept : rowHit s tenantID orgID repoID = false) :
    (s.repositories.remove (repoHit s tenantID orgID)).get repoID ≠ none := by
  obtain ⟨r, hr⟩ := Option.ne_none_iff_exists'.mp hget
  unfold rowHit at hkept
  rw [hr] at hkept
  rw [Table.get_remove, hr]
  simpa [Option.filter] using hkept

def deleteOrganization (s : Store) (tenantID orgID : String) : Store where
  organizations := s.organizations.remove (orgHit tenantID orgID)
  repositories := s.repositories.remove (repoHit s tenantID orgID)
  manifests := s.manifests.remove fun m => rowHit s tenantID orgID m.repoID
  tags := s.tags.remove fun t => rowHit s tenantID orgID t.repoID
  manifestChildren := s.manifestChildren.remove fun c => rowHit s tenantID orgID c.repoID
  nextID := s.nextID
  manifests_repo m hm := by
    obtain ⟨hm, hkept⟩ := Table.mem_remove.mp hm
    exact get_of_rowHit (s.manifests_repo m hm) hkept
  tags_repo t ht := by
    obtain ⟨ht, hkept⟩ := Table.mem_remove.mp ht
    exact get_of_rowHit (s.tags_repo t ht) hkept
  children_repo c hc := by
    obtain ⟨hc, hkept⟩ := Table.mem_remove.mp hc
    exact get_of_rowHit (s.children_repo c hc) hkept

def listRepositories (c : Collation) (s : Store) (tenantID orgID : String) : List RepositoryRow :=
  (s.repositories.rows.filter fun r =>
      r.tenantID = tenantID ∧ r.orgID = orgID ∧ (s.organizations.get r.orgID).isSome).insertionSort
    fun r q => c.Le r.name q.name

def tagRows (s : Store) : Core.TagList.Tags where
  rows := s.tags.rows.map fun t => ⟨t.repoID, t.tenantID, t.name⟩
  nodup := by
    rw [map_map]
    exact s.tags.nodup

def tagPageSize : Nat := 100

structure Config where
  (tenantID promoteTargetOrg : String)

structure Namespace where
  orgID : Option String
  active : Bool

structure State where
  db : Database
  row : Option Namespace

structure Calls where
  (getFails listRepositoriesFails : Bool)
  listTagsFails : String → String → Bool
  promote : PromoteTagInput → Env
  (getAgainFails tearDownFails : Bool)

inductive Outcome where
  | tornDown
  | promotedAndTornDown
  deriving DecidableEq

inductive Stop where
  | failed (e : RepoError)
  | running
  deriving DecidableEq

structure Progress where
  db : Database
  skipped : List PromoteTagInput

def promoteInput (cfg : Config) (srcOrg note repo tag : String) : PromoteTagInput where
  tenantID := cfg.tenantID
  srcOrg := srcOrg
  srcRepo := repo
  srcTag := tag
  dstOrg := cfg.promoteTargetOrg
  dstRepo := repo
  dstTag := tag
  actorUserID := none
  note := note
  createIfMissing := true

def promoteTags (calls : Calls) : Progress → List PromoteTagInput → Progress × Option Stop
  | p, [] => (p, none)
  | p, input :: rest =>
    match promoteTag (calls.promote input) p.db input with
    | (db, .ok _) => promoteTags calls ⟨db, p.skipped⟩ rest
    | (db, .error .immutableTag) => promoteTags calls ⟨db, p.skipped ++ [input]⟩ rest
    | (db, .error e) => (⟨db, p.skipped⟩, some (.failed e))

section Handler

variable (c : Collation) (calls : Calls) (cfg : Config) (srcOrg note : String)

def promoteRepo (repo : RepositoryRow) : Nat → String → Progress → Progress × Option Stop
  | 0, _, p => (p, some .running)
  | fuel + 1, last, p =>
    if calls.listTagsFails repo.id last then (p, some (.failed .internal))
    else
      let names := listTags c (tagRows p.db.store) cfg.tenantID repo.id tagPageSize last
      match promoteTags calls p (names.map (promoteInput cfg srcOrg note repo.name)) with
      | (p, some stop) => (p, some stop)
      | (p, none) =>
        -- a short page is the last one
        if names.length < tagPageSize then (p, none)
        else promoteRepo repo fuel (names.getLast?.getD "") p

def promoteRepos (fuel : Nat) : Progress → List RepositoryRow → Progress × Option Stop
  | p, [] => (p, none)
  | p, repo :: rest =>
    match promoteRepo c calls cfg srcOrg note repo fuel "" p with
    | (p, some stop) => (p, some stop)
    | (p, none) => promoteRepos fuel p rest

def mergeNote (prNumber : Int) : String := "PR #" ++ toString prNumber ++ " merge"

def promoteNamespace (prNumber : Int) (fuel : Nat) (orgID : String) (db : Database) :
    Progress × Option Stop :=
  if calls.listRepositoriesFails then (⟨db, []⟩, some (.failed .internal))
  else
    promoteRepos c calls cfg srcOrg (mergeNote prNumber) fuel ⟨db, []⟩
      (listRepositories c db.store cfg.tenantID orgID)

def tearDownNamespace (st : State) (row : Namespace) : State where
  db :=
    match row.orgID with
    | none => st.db
    | some orgID => { st.db with store := deleteOrganization st.db.store cfg.tenantID orgID }
  row := some ⟨none, false⟩

def tearDown (st : State) : State × Except Stop Outcome :=
  if calls.getAgainFails then (st, .error (.failed .internal))
  else
    match st.row with
    | none => (st, .ok .tornDown)
    | some row =>
      if !row.active then (st, .ok .tornDown)
      else if calls.tearDownFails then (st, .error (.failed .internal))
      else (tearDownNamespace cfg st row, .ok .tornDown)

structure Handled where
  state : State
  skipped : List PromoteTagInput
  answer : Except Stop Outcome

def promoteAndTearDown (prNumber : Int) (fuel : Nat) (st : State) : Handled :=
  if calls.getFails then ⟨st, [], .error (.failed .internal)⟩
  else
    match st.row with
    | some ⟨some orgID, true⟩ =>
      match promoteNamespace c calls cfg srcOrg prNumber fuel orgID st.db with
      | (p, some stop) => ⟨{ st with db := p.db }, p.skipped, .error stop⟩
      | (p, none) =>
        match tearDown calls cfg { st with db := p.db } with
        | (st, .error stop) => ⟨st, p.skipped, .error stop⟩
        | (st, .ok _) => ⟨st, p.skipped, .ok .promotedAndTornDown⟩
    | _ => ⟨st, [], .ok .tornDown⟩

def handleClosed (merged : Bool) (prNumber : Int) (fuel : Nat) (st : State) : Handled :=
  if merged && cfg.promoteTargetOrg != "" then
    promoteAndTearDown c calls cfg srcOrg prNumber fuel st
  else
    let torn := tearDown calls cfg st
    ⟨torn.1, [], torn.2⟩

end Handler

section Names

variable {s : Store} {r : RepositoryRow}

theorem destinationRepo_eq_some_iff (hwf : WellFormed s) {input : PromoteTagInput}
    (hplain : '/' ∉ input.dstOrg.toList) :
    destinationRepo s input = some r ↔ Named s input.tenantID input.dstOrg input.dstRepo r :=
  getRepositoryByFullName_eq_some_iff hwf hplain

theorem sourceTag_eq_some (hwf : WellFormed s) {input : PromoteTagInput}
    (hplain : '/' ∉ input.srcOrg.toList)
    (h : Named s input.tenantID input.srcOrg input.srcRepo r) {t : Tag} (ht : t ∈ s.tags.rows)
    (hrepo : t.repoID = r.id) (hname : t.name = input.srcTag) : sourceTag s input = some t := by
  have hget : s.repositories.get t.repoID = some r := by
    rw [hrepo]
    exact s.repositories.get_key h.mem
  have htenant : t.tenantID = input.tenantID := (hwf.tags_tenant t ht r hget).trans h.tenant
  cases hfind : sourceTag s input with
  | none =>
    have hnone := List.find?_eq_none.mp hfind t ht
    rw [decide_eq_true_eq, hget] at hnone
    exact absurd ⟨htenant, hname, h.fullName⟩ hnone
  | some u =>
    have hu := mem_of_find?_eq_some hfind
    have hfound := List.find?_some hfind
    rw [decide_eq_true_eq] at hfound
    obtain ⟨hutenant, huname, hfull⟩ := hfound
    obtain ⟨q, hq, hqfull⟩ := Option.bind_eq_some_iff.mp hfull
    have hnamed := hwf.named hplain (Table.mem_of_get hq)
      ((hwf.tags_tenant u hu q hq).symm.trans hutenant) hqfull
    obtain rfl := hnamed.unique hwf h
    have hurepo : u.repoID = q.id := (Table.key_of_get hq).symm
    rw [s.tags.eq_of_key_eq hu ht (Prod.ext (hurepo.trans hrepo.symm) (huname.trans hname.symm))]

end Names

structure Grown (s s' : Store) : Prop where
  wf : WellFormed s'
  organizations : s'.organizations = s.organizations
  manifests : s'.manifests = s.manifests
  repositories : s.repositories.rows ⊆ s'.repositories.rows

theorem Grown.refl {s : Store} (hwf : WellFormed s) : Grown s s :=
  ⟨hwf, rfl, rfl, List.Subset.refl _⟩

theorem Grown.trans {s s' s'' : Store} (h : Grown s s') (h' : Grown s' s'') : Grown s s'' where
  wf := h'.wf
  organizations := h'.organizations.trans h.organizations
  manifests := h'.manifests.trans h.manifests
  repositories := List.Subset.trans h.repositories h'.repositories

theorem Grown.named {s s' : Store} {tenantID org repo : String} {r : RepositoryRow}
    (hgrown : Grown s s') (h : Named s tenantID org repo r) : Named s' tenantID org repo r where
  mem := hgrown.repositories h.mem
  tenant := h.tenant
  name := h.name
  org := by
    rw [hgrown.organizations]
    exact h.org

section Promote

variable {env : Env} {s s' : Store} {input : PromoteTagInput} {dst : RepositoryRow}

theorem grown_insertRepo (hwf : WellFormed s) {org : Organization}
    (horg : destinationOrg s input = some org)
    (hins : insertRepo s (newRepo env input org) = some s') : Grown s s' := by
  obtain ⟨_, hrows, horgs, hmanifests, _⟩ := insertRepo_ok hins
  have hfound := List.find?_some horg
  rw [decide_eq_true_eq] at hfound
  have hget : s.organizations.get org.id = some org :=
    s.organizations.get_key (mem_of_find?_eq_some horg)
  refine ⟨hwf.insertRepo ⟨org, hget, hfound.1⟩ hins, horgs, hmanifests, ?_⟩
  rw [hrows]
  exact subset_append_left _ _

theorem grown_resolved (hwf : WellFormed s) (h : Resolved env s input s' dst) :
    Grown s s' ∧ s'.tags = s.tags := by
  cases h with
  | found _ => exact ⟨.refl hwf, rfl⟩
  | created _ horg hins =>
    exact ⟨grown_insertRepo hwf horg hins, (insertRepo_ok hins).2.2.2.2⟩

theorem grown_putTag (hwf : WellFormed s) {tenantID name digest : String}
    (hput : Store.PutTagEffect s s' tenantID dst.id name digest)
    (hdst : dst ∈ s.repositories.rows) (htenant : dst.tenantID = tenantID) : Grown s s' := by
  refine ⟨⟨?_, ?_, ?_, ?_, ?_⟩, hput.organizations, hput.manifests, ?_⟩
  · rw [hput.organizations]
    exact hwf.orgs
  · rw [hput.organizations]
    exact hwf.plain
  · rw [hput.repositories]
    exact hwf.repos
  · rw [hput.repositories, hput.organizations]
    exact hwf.repos_org
  · intro t ht r hr
    rw [hput.repositories] at hr
    have hget := s'.tags.get_key ht
    by_cases hkey : (t.repoID, t.name) = (dst.id, name)
    · rw [hkey] at hget
      rw [Prod.mk.injEq] at hkey
      rw [hkey.1, s.repositories.get_key hdst, Option.mem_some] at hr
      rw [putTag_tenant hwf hput hdst htenant hget, ← hr, htenant]
    · rw [hput.others _ hkey] at hget
      exact hwf.tags_tenant t (Table.mem_of_get hget) r hr
  · rw [hput.repositories]
    exact List.Subset.refl _

structure PromoteEffect (s s' : Store) (input : PromoteTagInput) (src : Tag)
    (dst : RepositoryRow) : Prop where
  source : sourceTag s input = some src
  grown : Grown s s'
  named : Named s' input.tenantID input.dstOrg input.dstRepo dst
  others : ∀ k, k ≠ (dst.id, input.dstTag) → s'.tags.get k = s.tags.get k
  row : ∃ t, s'.tags.get (dst.id, input.dstTag) = some t ∧
    t.manifestDigest = src.manifestDigest ∧ t.tenantID = input.tenantID

theorem promoteTag_effect {db db' : Database} {row : PromotionRow} (hwf : WellFormed db.store)
    (hplain : '/' ∉ input.dstOrg.toList) (h : promoteTag env db input = (db', .ok row)) :
    ∃ src dst, PromoteEffect db.store db'.store input src dst := by
  unfold promoteTag at h
  split at h
  · next after made htx =>
      cases h
      obtain ⟨src, s, dst, hpromoted⟩ := transaction_ok htx
      obtain ⟨hresolved, htags⟩ := grown_resolved hwf hpromoted.destination
      have hnamed := (destinationRepo_eq_some_iff hresolved.wf hplain).mp
        hpromoted.destination.destination
      have hput := hpromoted.tag
      have hgrown := grown_putTag hresolved.wf hput hnamed.mem hnamed.tenant
      obtain ⟨t, ht, hdigest, _⟩ := hput.row
      refine ⟨src, dst, hpromoted.source, hresolved.trans hgrown, hgrown.named hnamed, ?_,
        t, ht, hdigest, putTag_tenant hresolved.wf hput hnamed.mem hnamed.tenant ht⟩
      intro k hk
      rw [hput.others k hk, htags]
  · cases h

theorem promoteTag_error {db db' : Database} {e : RepoError}
    (h : promoteTag env db input = (db', .error e)) : db' = db := by
  unfold promoteTag at h
  split at h
  · cases h
  · cases h
    rfl

end Promote

def Holds (s : Store) (input : PromoteTagInput) (digest : String) : Prop :=
  ∃ dst t, Named s input.tenantID input.dstOrg input.dstRepo dst ∧
    s.tags.get (dst.id, input.dstTag) = some t ∧ t.manifestDigest = digest ∧
      t.tenantID = input.tenantID

def Untouched (org : Organization) (s s' : Store) : Prop :=
  ∀ r ∈ s.repositories.rows, r.orgID = org.id → ∀ name,
    s'.tags.get (r.id, name) = s.tags.get (r.id, name)

section Run

variable {cfg : Config} {org : Organization} {note : String} {s s' : Store}
  {input input' : PromoteTagInput} {src : Tag} {dst : RepositoryRow}

theorem PromoteEffect.holds (h : PromoteEffect s s' input src dst) :
    Holds s' input src.manifestDigest := by
  obtain ⟨t, ht, hdigest, htenant⟩ := h.row
  exact ⟨dst, t, h.named, ht, hdigest, htenant⟩

theorem Holds.promote {digest : String} (h : Holds s input digest)
    (heffect : PromoteEffect s s' input' src dst)
    (hother : (input'.dstRepo, input'.dstTag) ≠ (input.dstRepo, input.dstTag)) :
    Holds s' input digest := by
  obtain ⟨r, t, hnamed, ht, hdigest, htenant⟩ := h
  have hnamed' := heffect.grown.named hnamed
  refine ⟨r, t, hnamed', ?_, hdigest, htenant⟩
  rw [heffect.others _ ?_]
  · exact ht
  · intro hkey
    rw [Prod.mk.injEq] at hkey
    have hsame := s'.repositories.eq_of_key_eq hnamed'.mem heffect.named.mem hkey.1
    apply hother
    rw [← heffect.named.name, ← hsame, hnamed'.name, hkey.2]

theorem Untouched.promote {s₀ : Store} (h : Untouched org s₀ s) (hgrown : Grown s₀ s)
    (horg : org ∈ s₀.organizations.rows) (heffect : PromoteEffect s s' input src dst)
    (hne : input.dstOrg ≠ org.name) : Untouched org s₀ s' := by
  intro r hr horgID name
  rw [heffect.others _ ?_]
  · exact h r hr horgID name
  · intro hkey
    rw [Prod.mk.injEq] at hkey
    have hsame := s'.repositories.eq_of_key_eq
      (heffect.grown.repositories (hgrown.repositories hr)) heffect.named.mem hkey.1
    obtain ⟨o, ho, hname⟩ := heffect.named.org
    rw [← hsame, horgID, heffect.grown.organizations, hgrown.organizations,
      s₀.organizations.get_key horg, Option.some.injEq] at ho
    exact hne (hname.symm.trans (by rw [ho]))

structure InNamespace (s : Store) (org : Organization) (r : RepositoryRow) (t : Tag) : Prop where
  repo : r ∈ s.repositories.rows
  orgID : r.orgID = org.id
  tag : t ∈ s.tags.rows
  repoID : t.repoID = r.id

structure Progressed (cfg : Config) (org : Organization) (s₀ s : Store) : Prop where
  grown : Grown s₀ s
  untouched : cfg.promoteTargetOrg ≠ org.name → Untouched org s₀ s

structure Merge (cfg : Config) (org : Organization) (s₀ : Store) : Prop where
  wf : WellFormed s₀
  mem : org ∈ s₀.organizations.rows
  tenant : org.tenantID = cfg.tenantID
  target : '/' ∉ cfg.promoteTargetOrg.toList

variable {s₀ : Store} {r : RepositoryRow} {t : Tag} {calls : Calls}

theorem InNamespace.named (hmerge : Merge cfg org s₀) (h : InNamespace s₀ org r t) :
    Named s₀ cfg.tenantID org.name r.name r := by
  have hget := s₀.organizations.get_key hmerge.mem
  obtain ⟨o, ho, htenant⟩ := hmerge.wf.repos_org r h.repo
  rw [h.orgID, hget, Option.mem_some] at ho
  subst ho
  exact ⟨h.repo, htenant.symm.trans hmerge.tenant, rfl, org, by rw [h.orgID, hget], rfl⟩

theorem InNamespace.mem_tags (h : InNamespace s₀ org r t) (huntouched : Untouched org s₀ s) :
    t ∈ s.tags.rows := by
  have hget : s₀.tags.get (r.id, t.name) = some t := by
    rw [← h.repoID]
    exact s₀.tags.get_key h.tag
  rw [← huntouched r h.repo h.orgID t.name] at hget
  exact Table.mem_of_get hget

theorem InNamespace.sourceTag (note : String) (hmerge : Merge cfg org s₀)
    (h : InNamespace s₀ org r t) (hgrown : Grown s₀ s) (huntouched : Untouched org s₀ s) :
    sourceTag s (promoteInput cfg org.name note r.name t.name) = some t :=
  sourceTag_eq_some hgrown.wf (hmerge.wf.plain org hmerge.mem)
    (hgrown.named (h.named hmerge)) (h.mem_tags huntouched) h.repoID rfl

structure Advances (cfg : Config) (org : Organization) (note : String) (s₀ : Store)
    (p p' : Progress) (covers : RepositoryRow → Tag → Prop) : Prop where
  progressed : Progressed cfg org s₀ p'.db.store
  skipped : p.skipped ⊆ p'.skipped
  holds : cfg.promoteTargetOrg ≠ org.name → ∀ r t, InNamespace s₀ org r t →
    promoteInput cfg org.name note r.name t.name ∉ p'.skipped → (covers r t ∨
        Holds p.db.store (promoteInput cfg org.name note r.name t.name) t.manifestDigest) →
      Holds p'.db.store (promoteInput cfg org.name note r.name t.name) t.manifestDigest

namespace Advances

variable {p q p' : Progress} {C D E : RepositoryRow → Tag → Prop}

theorem refl (h : Progressed cfg org s₀ p.db.store) (hC : ∀ r t, ¬ C r t) :
    Advances cfg org note s₀ p p C :=
  ⟨h, List.Subset.refl _, fun _ r t _ _ hor => hor.resolve_left (hC r t)⟩

theorem trans (h : Advances cfg org note s₀ p q C) (h' : Advances cfg org note s₀ q p' D)
    (hE : cfg.promoteTargetOrg ≠ org.name → ∀ r t, InNamespace s₀ org r t → E r t →
      C r t ∨ D r t) : Advances cfg org note s₀ p p' E where
  progressed := h'.progressed
  skipped := List.Subset.trans h.skipped h'.skipped
  holds hne r t hin hnot hor := by
    have hbefore := h.holds hne r t hin fun hskipped => hnot (h'.skipped hskipped)
    refine h'.holds hne r t hin hnot ?_
    rcases hor with hcovered | hheld
    · exact (hE hne r t hin hcovered).symm.imp_right fun hC => hbefore (Or.inl hC)
    · exact Or.inr (hbefore (Or.inr hheld))

end Advances

variable {p p' : Progress} {repo tag : String}

theorem Progressed.promote (hmerge : Merge cfg org s₀) {env : Env} {db : Database}
    {row : PromotionRow} (h : Progressed cfg org s₀ p.db.store)
    (hpromote : promoteTag env p.db (promoteInput cfg org.name note repo tag) = (db, .ok row)) :
    Advances cfg org note s₀ p ⟨db, p.skipped⟩ fun r t => r.name = repo ∧ t.name = tag := by
  obtain ⟨src, dst, heffect⟩ := promoteTag_effect h.grown.wf hmerge.target hpromote
  refine ⟨⟨h.grown.trans heffect.grown, fun hne =>
    (h.untouched hne).promote h.grown hmerge.mem heffect hne⟩, List.Subset.refl _, ?_⟩
  intro hne r t hin _ hor
  by_cases hthis : r.name = repo ∧ t.name = tag
  · obtain ⟨rfl, rfl⟩ := hthis
    have hsource := InNamespace.sourceTag note hmerge hin h.grown (h.untouched hne)
    rw [heffect.source, Option.some.injEq] at hsource
    exact congrArg Tag.manifestDigest hsource ▸ heffect.holds
  · refine (hor.resolve_left hthis).promote heffect fun hsame => hthis ?_
    exact ⟨(congrArg Prod.fst hsame).symm, (congrArg Prod.snd hsame).symm⟩

theorem Progressed.skip (h : Progressed cfg org s₀ p.db.store) :
    Advances cfg org note s₀ p ⟨p.db, p.skipped ++ [promoteInput cfg org.name note repo tag]⟩
      fun r t => r.name = repo ∧ t.name = tag := by
  refine ⟨h, subset_append_left _ _, fun _ r t _ hnot hor => hor.resolve_left ?_⟩
  rintro ⟨rfl, rfl⟩
  exact hnot (mem_append_right _ (mem_singleton_self _))

theorem promoteTags_advances (hmerge : Merge cfg org s₀) {names : List String}
    (hrun : promoteTags calls p (names.map (promoteInput cfg org.name note repo)) = (p', none))
    (h : Progressed cfg org s₀ p.db.store) :
    Advances cfg org note s₀ p p' fun r t => r.name = repo ∧ t.name ∈ names := by
  induction names generalizing p with
  | nil =>
    cases hrun
    exact .refl h fun r t hmem => not_mem_nil hmem.2
  | cons name names ih =>
    have hsplit : ∀ (r : RepositoryRow) (t : Tag), r.name = repo ∧ t.name ∈ name :: names →
        (r.name = repo ∧ t.name = name) ∨ (r.name = repo ∧ t.name ∈ names) :=
      fun r t hmem => (mem_cons.mp hmem.2).imp (⟨hmem.1, ·⟩) (⟨hmem.1, ·⟩)
    rw [map_cons, promoteTags] at hrun
    split at hrun
    · next db row hpromote =>
        have hstep := h.promote hmerge hpromote
        exact hstep.trans (ih hrun hstep.progressed) fun _ r t _ => hsplit r t
    · next db hpromote =>
        obtain rfl := promoteTag_error hpromote
        exact h.skip.trans (ih hrun h) fun _ r t _ => hsplit r t
    · cases hrun

variable {c : Collation}

theorem InNamespace.mem_tagNames (hmerge : Merge cfg org s₀) (h : InNamespace s₀ org r t)
    (huntouched : Untouched org s₀ s) : t.name ∈ tagNames (tagRows s) cfg.tenantID r.id := by
  have hget : s₀.repositories.get t.repoID = some r := by
    rw [h.repoID]
    exact s₀.repositories.get_key h.repo
  have htenant := (hmerge.wf.tags_tenant t h.tag r hget).trans (h.named hmerge).tenant
  refine mem_map.mpr ⟨⟨t.repoID, t.tenantID, t.name⟩, mem_filter.mpr ⟨?_, ?_⟩, rfl⟩
  · exact mem_map.mpr ⟨t, h.mem_tags huntouched, rfl⟩
  · exact decide_eq_true ⟨h.repoID, htenant⟩

variable {fuel : Nat}

theorem promoteRepo_advances (hmerge : Merge cfg org s₀) {last : String}
    (hrun : promoteRepo c calls cfg org.name note r fuel last p = (p', none))
    (h : Progressed cfg org s₀ p.db.store) :
    Advances cfg org note s₀ p p' fun q t => q = r ∧ (last = "" ∨ c.Less last t.name) := by
  induction fuel generalizing last p with
  | zero => cases hrun
  | succ fuel ih =>
    rw [promoteRepo] at hrun
    split_ifs at hrun
    · cases hrun
    dsimp only at hrun
    generalize hnames : listTags c (tagRows p.db.store) cfg.tenantID r.id tagPageSize last =
      names at hrun
    split at hrun
    · cases hrun
    · next q hpage =>
        have hstep := promoteTags_advances hmerge hpage h
        -- a name that is not on this page is above its last one
        have hcover : cfg.promoteTargetOrg ≠ org.name → ∀ t, InNamespace s₀ org r t →
            (last = "" ∨ c.Less last t.name) → t.name ∈ names ∨
              names.length = tagPageSize ∧ ∀ l ∈ names.getLast?, c.Less l t.name := by
          intro hne t hin hafter
          rw [← hnames]
          exact Core.TagList.listTags_covers (by decide)
            (hin.mem_tagNames hmerge (h.untouched hne)) hafter
        split_ifs at hrun with hshort
        · cases hrun
          refine hstep.trans (.refl hstep.progressed fun _ _ => not_false) ?_
          rintro hne _ t hin ⟨rfl, hafter⟩
          rcases hcover hne t hin hafter with hmem | ⟨hfull, _⟩
          · exact Or.inl ⟨rfl, hmem⟩
          · omega
        · refine hstep.trans (ih hrun hstep.progressed) ?_
          rintro hne _ t hin ⟨rfl, hafter⟩
          rcases hcover hne t hin hafter with hmem | ⟨_, habove⟩
          · exact Or.inl ⟨rfl, hmem⟩
          · refine Or.inr ⟨rfl, ?_⟩
            cases hlast : names.getLast? with
            | none => exact Or.inl rfl
            | some l => exact Or.inr (habove l hlast)

theorem promoteRepos_advances (hmerge : Merge cfg org s₀) {repos : List RepositoryRow}
    (hrun : promoteRepos c calls cfg org.name note fuel p repos = (p', none))
    (h : Progressed cfg org s₀ p.db.store) :
    Advances cfg org note s₀ p p' fun q _ => q ∈ repos := by
  induction repos generalizing p with
  | nil =>
    cases hrun
    exact .refl h fun _ _ => not_mem_nil
  | cons repo rest ih =>
    rw [promoteRepos] at hrun
    split at hrun
    · cases hrun
    · next q hrepo =>
        have hstep := promoteRepo_advances hmerge hrepo h
        refine hstep.trans (ih hrun hstep.progressed) fun _ r t _ hmem => ?_
        exact (mem_cons.mp hmem).imp_left fun hr => ⟨hr, Or.inl rfl⟩

theorem InNamespace.mem_listRepositories (hmerge : Merge cfg org s₀) (h : InNamespace s₀ org r t) :
    r ∈ listRepositories c s₀ cfg.tenantID org.id := by
  refine (perm_insertionSort _ _).mem_iff.mpr (mem_filter.mpr ⟨h.repo, ?_⟩)
  refine decide_eq_true ⟨(h.named hmerge).tenant, h.orgID, ?_⟩
  rw [h.orgID, s₀.organizations.get_key hmerge.mem]
  rfl

theorem promoteNamespace_progressed {db : Database} (hmerge : Merge cfg org db.store)
    {prNumber : Int} {p : Progress}
    (hrun : promoteNamespace c calls cfg org.name prNumber fuel org.id db = (p, none)) :
    Progressed cfg org db.store p.db.store ∧
      (cfg.promoteTargetOrg ≠ org.name → ∀ r t, InNamespace db.store org r t →
        promoteInput cfg org.name (mergeNote prNumber) r.name t.name ∉ p.skipped →
          Holds p.db.store (promoteInput cfg org.name (mergeNote prNumber) r.name t.name)
            t.manifestDigest) := by
  unfold promoteNamespace at hrun
  split_ifs at hrun
  · cases hrun
  have hmade := promoteRepos_advances hmerge hrun ⟨.refl hmerge.wf, fun _ _ _ _ _ => rfl⟩
  exact ⟨hmade.progressed, fun hne r t hin hnot =>
    hmade.holds hne r t hin hnot (Or.inl (hin.mem_listRepositories hmerge))⟩

end Run

def ResolvesTo (s : Store) (input : PromoteTagInput) (digest : String) : Prop :=
  ∃ dst, destinationRepo s input = some dst ∧
    ∃ m, s.resolveTag input.tenantID dst.id input.dstTag = some m ∧ m.digest = digest

def HeldByTarget (s : Store) (input : PromoteTagInput) (digest : String) : Prop :=
  ∃ dst, destinationRepo s input = some dst ∧ (s.manifestRow input.tenantID dst.id digest).isSome

section Deleted

variable {s : Store} {tenantID orgID : String} {r : RepositoryRow}

theorem repoHit_eq_false (hne : r.orgID ≠ orgID) : repoHit s tenantID orgID r = false := by
  unfold repoHit
  cases ho : s.organizations.get r.orgID with
  | none => rfl
  | some o =>
    have hkey : o.id = r.orgID := Table.key_of_get ho
    exact decide_eq_false fun hhit => hne (hkey.symm.trans hhit.1)

theorem repoHit_eq_true {org : Organization} (horg : org ∈ s.organizations.rows)
    (htenant : org.tenantID = tenantID) (horgID : r.orgID = org.id) :
    repoHit s tenantID org.id r = true := by
  unfold repoHit
  rw [horgID, s.organizations.get_key horg]
  exact decide_eq_true ⟨rfl, htenant⟩

theorem rowHit_eq_false (hr : r ∈ s.repositories.rows) (hne : r.orgID ≠ orgID) :
    rowHit s tenantID orgID r.id = false := by
  unfold rowHit
  rw [s.repositories.get_key hr]
  exact repoHit_eq_false hne

theorem wf_deleteOrganization (hwf : WellFormed s) :
    WellFormed (deleteOrganization s tenantID orgID) where
  orgs o ho o' ho' := hwf.orgs o (Table.mem_remove.mp ho).1 o' (Table.mem_remove.mp ho').1
  plain o ho := hwf.plain o (Table.mem_remove.mp ho).1
  repos r hr r' hr' := hwf.repos r (Table.mem_remove.mp hr).1 r' (Table.mem_remove.mp hr').1
  repos_org r hr := by
    obtain ⟨hr, hkept⟩ := Table.mem_remove.mp hr
    obtain ⟨o, ho, htenant⟩ := hwf.repos_org r hr
    refine ⟨o, ?_, htenant⟩
    unfold repoHit at hkept
    rw [ho, Option.any_some] at hkept
    show (s.organizations.remove (orgHit tenantID orgID)).get r.orgID = some o
    rw [Table.get_remove, ho]
    simp [Option.filter, hkept]
  tags_tenant t ht r hr := by
    have hget : (s.repositories.remove (repoHit s tenantID orgID)).get t.repoID = some r := hr
    rw [Table.get_remove, Option.filter_eq_some_iff] at hget
    exact hwf.tags_tenant t (Table.mem_remove.mp ht).1 r hget.1

theorem resolveTag_deleteOrganization (hr : r ∈ s.repositories.rows) (hne : r.orgID ≠ orgID)
    (tenant name : String) :
    (deleteOrganization s tenantID orgID).resolveTag tenant r.id name =
      s.resolveTag tenant r.id name := by
  have hkept : rowHit s tenantID orgID r.id = false := rowHit_eq_false hr hne
  have htags : (deleteOrganization s tenantID orgID).tags.get (r.id, name) =
      s.tags.get (r.id, name) :=
    Table.get_remove_of_kept fun t ht => by rw [(Store.tags_get_key ht).1, hkept]
  have hmanifests : ∀ digest, (deleteOrganization s tenantID orgID).manifests.get (r.id, digest) =
      s.manifests.get (r.id, digest) := fun digest =>
    Table.get_remove_of_kept fun m hm => by rw [(Store.manifests_get_key hm).1, hkept]
  unfold Store.resolveTag Store.getTag Store.manifestRow
  simp only [htags, hmanifests]

theorem deleteOrganization_gone {org : Organization} (horg : org ∈ s.organizations.rows)
    (htenant : org.tenantID = tenantID) (hr : r ∈ s.repositories.rows) (horgID : r.orgID = org.id) :
    (deleteOrganization s tenantID org.id).repositories.get r.id = none := by
  show (s.repositories.remove _).get r.id = none
  rw [Table.get_remove, s.repositories.get_key hr]
  simp [Option.filter, repoHit_eq_true horg htenant horgID]

theorem not_resolvesTo_deleted (hwf : WellFormed s) {org : Organization}
    (horg : org ∈ s.organizations.rows) {input : PromoteTagInput} {digest : String}
    (htenant : org.tenantID = input.tenantID) (htarget : input.dstOrg = org.name) :
    ¬ ResolvesTo (deleteOrganization s input.tenantID org.id) input digest := by
  have hplain : '/' ∉ input.dstOrg.toList := by
    rw [htarget]
    exact hwf.plain org horg
  rintro ⟨dst, hdst, _⟩
  have hnamed := (destinationRepo_eq_some_iff (wf_deleteOrganization hwf) hplain).mp hdst
  obtain ⟨hmem, hkept⟩ := Table.mem_remove.mp hnamed.mem
  obtain ⟨o, ho, hname⟩ := hnamed.org
  have hget : (s.organizations.remove (orgHit input.tenantID org.id)).get dst.orgID = some o := ho
  rw [Table.get_remove, Option.filter_eq_some_iff] at hget
  have hbefore : Named s input.tenantID input.dstOrg input.dstRepo dst :=
    ⟨hmem, hnamed.tenant, hnamed.name, o, hget.1, hname⟩
  rw [repoHit_eq_true horg htenant (hbefore.orgID_eq hwf horg htenant htarget.symm)] at hkept
  cases hkept

theorem Holds.resolvesTo_iff (hwf : WellFormed s) {org : Organization}
    (horg : org ∈ s.organizations.rows) {input : PromoteTagInput} {digest : String}
    (hplain : '/' ∉ input.dstOrg.toList) (htarget : input.dstOrg ≠ org.name)
    (h : Holds s input digest) :
    ResolvesTo (deleteOrganization s tenantID org.id) input digest ↔
      HeldByTarget s input digest := by
  obtain ⟨dst, t, hnamed, ht, hdigest, htenant⟩ := h
  obtain ⟨o, ho, hname⟩ := hnamed.org
  have hne : dst.orgID ≠ org.id := by
    intro hsame
    rw [hsame, s.organizations.get_key horg, Option.some.injEq] at ho
    exact htarget (hname.symm.trans (by rw [ho]))
  have hdst := (destinationRepo_eq_some_iff hwf hplain).mpr hnamed
  have hafter : Named (deleteOrganization s tenantID org.id) input.tenantID input.dstOrg
      input.dstRepo dst := by
    refine ⟨Table.mem_remove.mpr ⟨hnamed.mem, repoHit_eq_false hne⟩, hnamed.tenant, hnamed.name,
      o, ?_, hname⟩
    refine (Table.get_remove_of_kept fun p hp => ?_).trans ho
    have hkey : p.id = dst.orgID := Table.key_of_get hp
    exact decide_eq_false fun hhit => hne (hkey.symm.trans hhit.1)
  have hresolve : s.resolveTag input.tenantID dst.id input.dstTag =
      s.manifestRow input.tenantID dst.id digest := by
    rw [Store.resolveTag, Store.getTag_eq_some.mpr ⟨ht, htenant⟩]
    dsimp only
    rw [hdigest]
  unfold ResolvesTo HeldByTarget
  rw [(destinationRepo_eq_some_iff (wf_deleteOrganization hwf) hplain).mpr hafter, hdst]
  constructor
  · rintro ⟨_, ⟨⟩, m, hm, _⟩
    rw [resolveTag_deleteOrganization hnamed.mem hne, hresolve] at hm
    exact ⟨dst, rfl, by rw [hm]; rfl⟩
  · rintro ⟨_, ⟨⟩, hm⟩
    obtain ⟨m, hm⟩ := Option.isSome_iff_exists.mp hm
    refine ⟨dst, rfl, m, ?_, ?_⟩
    · rw [resolveTag_deleteOrganization hnamed.mem hne, hresolve, hm]
    · exact (Store.manifests_get_key (Store.manifestRow_eq_some.mp hm).1).2

theorem Grown.heldByTarget_iff {s' : Store} (hwf : WellFormed s) (h : Grown s s')
    {input : PromoteTagInput} (hplain : '/' ∉ input.dstOrg.toList) (digest : String) :
    HeldByTarget s' input digest ↔ HeldByTarget s input digest := by
  have hrow : ∀ repoID, s'.manifestRow input.tenantID repoID digest =
      s.manifestRow input.tenantID repoID digest := by
    intro repoID
    rw [Store.manifestRow, h.manifests, Store.manifestRow]
  constructor
  · rintro ⟨dst, hdst, hm⟩
    rw [hrow] at hm
    have hnamed := (destinationRepo_eq_some_iff h.wf hplain).mp hdst
    -- a repository that holds a manifest row is not a new one
    obtain ⟨m, hget⟩ := Option.isSome_iff_exists.mp hm
    have hmget := (Store.manifestRow_eq_some.mp hget).1
    have hrepo := s.manifests_repo m (Table.mem_of_get hmget)
    rw [(Store.manifests_get_key hmget).1] at hrepo
    obtain ⟨q, hq⟩ := Option.ne_none_iff_exists'.mp hrepo
    have hsame := s'.repositories.eq_of_key_eq (h.repositories (Table.mem_of_get hq)) hnamed.mem
      (Table.key_of_get hq)
    subst hsame
    have horg := hnamed.org
    rw [h.organizations] at horg
    exact ⟨q, (destinationRepo_eq_some_iff hwf hplain).mpr
      ⟨Table.mem_of_get hq, hnamed.tenant, hnamed.name, horg⟩, hm⟩
  · rintro ⟨dst, hdst, hm⟩
    have hnamed := (destinationRepo_eq_some_iff hwf hplain).mp hdst
    refine ⟨dst, (destinationRepo_eq_some_iff h.wf hplain).mpr (h.named hnamed), ?_⟩
    rw [hrow]
    exact hm

end Deleted

theorem tearDown_active (calls : Calls) (cfg : Config) {st : State} {row : Namespace}
    (hrow : st.row = some row) (hactive : row.active = true) :
    tearDown calls cfg st =
      if calls.getAgainFails || calls.tearDownFails then (st, .error (.failed .internal))
      else (tearDownNamespace cfg st row, .ok .tornDown) := by
  unfold tearDown
  rw [hrow]
  cases calls.getAgainFails with
  | true => rfl
  | false =>
    simp only [hactive]
    cases calls.tearDownFails with
    | true | false => rfl

theorem handleClosed_promoted {c : Collation} {calls : Calls} {cfg : Config} {org : Organization}
    {merged : Bool} {prNumber : Int} {fuel : Nat} {st : State}
    (hrow : st.row = some ⟨some org.id, true⟩)
    (hok : (handleClosed c calls cfg org.name merged prNumber fuel st).answer =
      .ok .promotedAndTornDown) :
    ∃ p, promoteNamespace c calls cfg org.name prNumber fuel org.id st.db = (p, none) ∧
      (handleClosed c calls cfg org.name merged prNumber fuel st).skipped = p.skipped ∧
      (handleClosed c calls cfg org.name merged prNumber fuel st).state.db.store =
        deleteOrganization p.db.store cfg.tenantID org.id := by
  have htorn : ∀ db, tearDown calls cfg ⟨db, some ⟨some org.id, true⟩⟩ = _ :=
    fun db => tearDown_active calls cfg rfl rfl
  unfold handleClosed promoteAndTearDown at hok ⊢
  simp only [hrow, tearDown_active calls cfg hrow rfl] at hok ⊢
  split_ifs at hok ⊢
  -- without a promotion, or when a call fails, it reports something else
  all_goals try cases hok
  all_goals
    split at hok
    · cases hok
    · next p hrun =>
        simp only [htorn] at hok ⊢
        split_ifs at hok ⊢
        exact ⟨p, hrun, rfl, rfl⟩

/-- **When a merge keeps a tag's image.** -/
theorem merge_keeps_iff (c : Collation) (calls : Calls) (cfg : Config) (org : Organization)
    (merged : Bool) (prNumber : Int) (fuel : Nat) (st : State)
    (hmerge : Merge cfg org st.db.store) (hrow : st.row = some ⟨some org.id, true⟩)
    (hok : (handleClosed c calls cfg org.name merged prNumber fuel st).answer =
      .ok .promotedAndTornDown) :
    (∀ r ∈ st.db.store.repositories.rows, r.orgID = org.id →
      (handleClosed c calls cfg org.name merged prNumber fuel st).state.db.store.repositories.get
        r.id = none) ∧
    ∀ r t, InNamespace st.db.store org r t →
      promoteInput cfg org.name (mergeNote prNumber) r.name t.name ∉
        (handleClosed c calls cfg org.name merged prNumber fuel st).skipped →
      (ResolvesTo (handleClosed c calls cfg org.name merged prNumber fuel st).state.db.store
          (promoteInput cfg org.name (mergeNote prNumber) r.name t.name) t.manifestDigest ↔
        cfg.promoteTargetOrg ≠ org.name ∧ HeldByTarget st.db.store
            (promoteInput cfg org.name (mergeNote prNumber) r.name t.name) t.manifestDigest) := by
  obtain ⟨p, hpromoted, hskipped, hstore⟩ := handleClosed_promoted hrow hok
  obtain ⟨hend, hholds⟩ := promoteNamespace_progressed hmerge hpromoted
  have horg : org ∈ p.db.store.organizations.rows := by
    rw [hend.grown.organizations]
    exact hmerge.mem
  rw [hskipped, hstore]
  constructor
  · intro r hr horgID
    exact deleteOrganization_gone horg hmerge.tenant (hend.grown.repositories hr) horgID
  · intro r t hin hnot
    by_cases htarget : cfg.promoteTargetOrg = org.name
    · constructor
      · intro hresolves
        exact absurd hresolves (not_resolvesTo_deleted hend.grown.wf horg hmerge.tenant htarget)
      · exact fun hheld => absurd htarget hheld.1
    · rw [(hholds htarget r t hin hnot).resolvesTo_iff hend.grown.wf horg hmerge.target htarget,
        hend.grown.heldByTarget_iff hmerge.wf hmerge.target]
      exact ⟨fun hheld => ⟨htarget, hheld⟩, fun hheld => hheld.2⟩

def oneImage (held : List (String × Bytes)) : State where
  db :=
    { store :=
        run (Store.apply indexDocuments)
          (Store.fresh ⟨[⟨"n", "t", "pr-app-1"⟩, ⟨"a", "t", "acme"⟩], by decide⟩
            ⟨[⟨"r", "n", "t", "app", false, 0, 0⟩, ⟨"q", "a", "t", "app", false, 0, 0⟩], by decide⟩)
          (.putManifest 0 "t" "r" "sha256:m" mediaTypeOCIManifest [1] ::
            .putTag "t" "r" "v1" "sha256:m" ::
            held.map fun image => .putManifest 0 "t" "q" image.1 mediaTypeOCIManifest image.2)
      promotions := [] }
  row := some ⟨some "n", true⟩

def Calls.quiet : Calls := ⟨false, false, fun _ _ => false, fun _ => .quiet, false, false⟩

def toAcme : Config := ⟨"t", "acme"⟩

def merge (held : List (String × Bytes)) : Handled :=
  handleClosed Core.TagList.byText .quiet toAcme "pr-app-1" true 1 1 (oneImage held)

theorem merge_keeps_held_image :
    ResolvesTo (merge [("sha256:m", [1])]).state.db.store
      (promoteInput toAcme "pr-app-1" (mergeNote 1) "app" "v1") "sha256:m" := by
  refine ((merge_keeps_iff Core.TagList.byText .quiet toAcme ⟨"n", "t", "pr-app-1"⟩ true 1 1
    (oneImage [("sha256:m", [1])])
    ⟨⟨by decide +kernel, by decide +kernel, by decide +kernel, by decide +kernel,
      by decide +kernel⟩, by decide +kernel, by decide +kernel, by decide +kernel⟩
    rfl (by decide +kernel)).2 ⟨"r", "n", "t", "app", false, 0, 0⟩
    ⟨"r", "t", "v1", "sha256:m", false⟩
    ⟨by decide +kernel, rfl, by decide +kernel, rfl⟩ ?_).mpr ⟨by decide, ?_⟩
  · have hskipped : (merge [("sha256:m", [1])]).skipped = [] := by decide +kernel
    show _ ∉ (merge [("sha256:m", [1])]).skipped
    rw [hskipped]
    exact not_mem_nil
  · exact ⟨⟨"q", "a", "t", "app", false, 0, 0⟩, by decide +kernel, by decide +kernel⟩

/-- **The merge reports success, and the image is nowhere.** -/
theorem merge_loses_image :
    InNamespace (oneImage []).db.store ⟨"n", "t", "pr-app-1"⟩ ⟨"r", "n", "t", "app", false, 0, 0⟩
        ⟨"r", "t", "v1", "sha256:m", false⟩ ∧
      (merge []).answer = .ok .promotedAndTornDown ∧ (merge []).skipped = [] ∧
      ((merge []).state.db.store.getTag "t" "q" "v1").map (·.manifestDigest) = some "sha256:m" ∧
      (merge []).state.db.store.manifests.rows = [] ∧
      ¬ ResolvesTo (merge []).state.db.store
        (promoteInput toAcme "pr-app-1" (mergeNote 1) "app" "v1") "sha256:m" := by
  have hrows : (merge []).state.db.store.manifests.rows = [] := by decide +kernel
  refine ⟨⟨by decide +kernel, rfl, by decide +kernel, rfl⟩, by decide +kernel, by decide +kernel,
    by decide +kernel, hrows, ?_⟩
  rintro ⟨dst, _, m, hm, _⟩
  unfold Store.resolveTag at hm
  split at hm
  · have hmem := Table.mem_of_get (Store.manifestRow_eq_some.mp hm).1
    rw [hrows] at hmem
    cases hmem
  · cases hm

end OciJanus.Metadata.PrMerge
