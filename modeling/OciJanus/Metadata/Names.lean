import OciJanus.Metadata.Promotion
import OciJanus.Verified.GoStrings

/-!
# Names of repositories

`CreateRepository` cuts a full name at its first slash; `GetRepositoryByName` joins the two tables
and compares the full names.
-/

namespace OciJanus.Metadata.Names

open Metadata Metadata.Promotion Verified.GoStrings Verified.KeyedTable List

def getRepositoryByFullName (s : Store) (tenantID name : String) : Option RepositoryRow :=
  s.repositories.rows.find? fun r => r.tenantID = tenantID ∧ fullName s r = some name

def getOrCreateOrganization (s : Store) (tenantID orgName id : String) :
    Option (Store × Organization) :=
  match s.organizations.rows.find? fun o => o.tenantID = tenantID ∧ o.name = orgName with
  | some o => some (s, o)
  | none =>
    (s.organizations.insert? ⟨id, tenantID, orgName⟩).map fun organizations =>
      ({ s with organizations := organizations }, ⟨id, tenantID, orgName⟩)

structure Fresh where
  (orgID repoID : String)
  now : Int

def newRepository (fresh : Fresh) (tenantID name : String) (o : Organization) : RepositoryRow where
  id := fresh.repoID
  orgID := o.id
  tenantID := tenantID
  name := name
  immutableTags := false
  storageUsed := 0
  createdAt := fresh.now

def createRepository (s : Store) (fresh : Fresh) (tenantID name : String) :
    Option (Store × RepositoryRow) :=
  match cut '/' name with
  | none => none
  | some (org, repo) =>
    if tenantID = "" then none
    else
      match getOrCreateOrganization s tenantID org fresh.orgID with
      | none => none
      | some (s, o) =>
        match s.repositories.rows.find? fun r => r.orgID = o.id ∧ r.name = repo with
        | some r => if r.tenantID = tenantID then some (s, r) else none
        | none =>
          (insertRepo s (newRepository fresh tenantID repo o)).map fun s' =>
            (s', newRepository fresh tenantID repo o)

structure WellFormed (s : Store) : Prop where
  orgs : ∀ o ∈ s.organizations.rows, ∀ o' ∈ s.organizations.rows,
    o.tenantID = o'.tenantID → o.name = o'.name → o = o'
  plain : ∀ o ∈ s.organizations.rows, '/' ∉ o.name.toList
  repos : ∀ r ∈ s.repositories.rows, ∀ r' ∈ s.repositories.rows,
    r.orgID = r'.orgID → r.name = r'.name → r = r'
  repos_org : ∀ r ∈ s.repositories.rows, ∃ o ∈ s.organizations.get r.orgID, o.tenantID = r.tenantID
  tags_tenant : ∀ t ∈ s.tags.rows, ∀ r ∈ s.repositories.get t.repoID, t.tenantID = r.tenantID

structure Named (s : Store) (tenantID org repo : String) (r : RepositoryRow) : Prop where
  mem : r ∈ s.repositories.rows
  tenant : r.tenantID = tenantID
  name : r.name = repo
  org : ∃ o, s.organizations.get r.orgID = some o ∧ o.name = org

section Names

variable {s : Store} {tenantID org repo : String} {r : RepositoryRow}

theorem Named.fullName (h : Named s tenantID org repo r) :
    fullName s r = some (promoteFullName org repo) := by
  obtain ⟨o, ho, hname⟩ := h.org
  rw [Promotion.fullName, ho, Option.map_some, hname, h.name]

theorem WellFormed.named (hwf : WellFormed s) (hplain : '/' ∉ org.toList)
    (hr : r ∈ s.repositories.rows) (htenant : r.tenantID = tenantID)
    (hfull : fullName s r = some (promoteFullName org repo)) : Named s tenantID org repo r := by
  obtain ⟨o, ho, hjoined⟩ := Option.map_eq_some_iff.mp hfull
  obtain ⟨horg, hrepo⟩ := fullName_inj (hwf.plain o (Table.mem_of_get ho)) hplain hjoined
  exact ⟨hr, htenant, hrepo, o, ho, horg⟩

variable {o : Organization} {s' : Store}

theorem Named.orgID_eq (hwf : WellFormed s) (h : Named s tenantID org repo r)
    (ho : o ∈ s.organizations.rows) (htenant : o.tenantID = tenantID) (hname : o.name = org) :
    r.orgID = o.id := by
  obtain ⟨p, hp, hpname⟩ := h.org
  obtain ⟨q, hq, hqtenant⟩ := hwf.repos_org r h.mem
  obtain rfl : p = q := Option.some.inj (hp.symm.trans hq)
  have heq := hwf.orgs p (Table.mem_of_get hp) o ho
    (hqtenant.trans (h.tenant.trans htenant.symm)) (hpname.trans hname.symm)
  rw [← Table.key_of_get hp, heq]

theorem Named.unique (hwf : WellFormed s) (h : Named s tenantID org repo r) {r' : RepositoryRow}
    (h' : Named s tenantID org repo r') : r = r' := by
  obtain ⟨o, ho, hname⟩ := h'.org
  obtain ⟨q, hq, htenant⟩ := hwf.repos_org r' h'.mem
  obtain rfl : o = q := Option.some.inj (ho.symm.trans hq)
  have horg := h.orgID_eq hwf (Table.mem_of_get ho) (htenant.trans h'.tenant) hname
  have hkey : o.id = r'.orgID := Table.key_of_get ho
  exact hwf.repos r h.mem r' h'.mem (horg.trans hkey) (h.name.trans h'.name.symm)

theorem WellFormed.congr (hwf : WellFormed s)
    (horgs : s'.organizations = s.organizations) (hrepos : s'.repositories = s.repositories)
    (htags : s'.tags = s.tags) : WellFormed s' := by
  refine ⟨?_, ?_, ?_, ?_, ?_⟩
  · rw [horgs]
    exact hwf.orgs
  · rw [horgs]
    exact hwf.plain
  · rw [hrepos]
    exact hwf.repos
  · rw [horgs, hrepos]
    exact hwf.repos_org
  · rw [hrepos, htags]
    exact hwf.tags_tenant

theorem getRepositoryByFullName_congr (horgs : s'.organizations = s.organizations)
    (hrepos : s'.repositories = s.repositories) (name : String) :
    getRepositoryByFullName s' tenantID name = getRepositoryByFullName s tenantID name := by
  unfold getRepositoryByFullName Promotion.fullName
  rw [horgs, hrepos]

theorem getRepositoryByFullName_eq_some_iff (hwf : WellFormed s) (hplain : '/' ∉ org.toList) :
    getRepositoryByFullName s tenantID (promoteFullName org repo) = some r ↔
      Named s tenantID org repo r := by
  have hsound : ∀ q, getRepositoryByFullName s tenantID (promoteFullName org repo) = some q →
      Named s tenantID org repo q := by
    intro q hq
    have hfound := List.find?_some hq
    rw [decide_eq_true_eq] at hfound
    exact hwf.named hplain (mem_of_find?_eq_some hq) hfound.1 hfound.2
  refine ⟨hsound r, fun h => ?_⟩
  cases hfind : getRepositoryByFullName s tenantID (promoteFullName org repo) with
  | some q => rw [(hsound q hfind).unique hwf h]
  | none =>
    have hnone := List.find?_eq_none.mp hfind r h.mem
    rw [decide_eq_true_eq] at hnone
    exact absurd ⟨h.tenant, h.fullName⟩ hnone

theorem putTag_tenant (hwf : WellFormed s) {dst : RepositoryRow} {name digest : String}
    (hput : Store.PutTagEffect s s' tenantID dst.id name digest)
    (hdst : dst ∈ s.repositories.rows) (htenant : dst.tenantID = tenantID) {t : Tag}
    (ht : s'.tags.get (dst.id, name) = some t) : t.tenantID = tenantID := by
  obtain ⟨u, hu, _, hkept, hnew⟩ := hput.row
  rw [hu, Option.some.injEq] at ht
  subst ht
  cases hold : s.tags.get (dst.id, name) with
  | none => exact (hnew hold).1
  | some old =>
    have hget : s.repositories.get old.repoID = some dst := by
      rw [(Store.tags_get_key hold).1]
      exact s.repositories.get_key hdst
    rw [(hkept old hold).1, hwf.tags_tenant old (Table.mem_of_get hold) dst hget, htenant]

theorem WellFormed.insertRepo (hwf : WellFormed s)
    (horg : ∃ o ∈ s.organizations.get r.orgID, o.tenantID = r.tenantID)
    (hins : insertRepo s r = some s') : WellFormed s' := by
  have hfree : ∀ q ∈ s.repositories.rows, q.orgID = r.orgID → q.name ≠ r.name := by
    intro q hq horgID hname
    unfold Promotion.insertRepo at hins
    rw [if_pos (any_eq_true.mpr ⟨q, hq, decide_eq_true ⟨horgID, hname⟩⟩)] at hins
    cases hins
  obtain ⟨_, hrows, horgs, _, htags⟩ := insertRepo_ok hins
  have hmem : ∀ q, q ∈ s'.repositories.rows ↔ q ∈ s.repositories.rows ∨ q = r := by
    intro q
    rw [hrows, mem_append, mem_singleton]
  refine ⟨?_, ?_, ?_, ?_, ?_⟩
  · rw [horgs]
    exact hwf.orgs
  · rw [horgs]
    exact hwf.plain
  · intro q hq q' hq' horgID hname
    rcases (hmem q).mp hq with hq | rfl
    · rcases (hmem q').mp hq' with hq' | rfl
      · exact hwf.repos q hq q' hq' horgID hname
      · exact absurd hname (hfree q hq horgID)
    · rcases (hmem q').mp hq' with hq' | rfl
      · exact absurd hname.symm (hfree q' hq' horgID.symm)
      · rfl
  · intro q hq
    rw [horgs]
    rcases (hmem q).mp hq with hq | rfl
    · exact hwf.repos_org q hq
    · exact horg
  · intro t ht q hq
    rw [htags] at ht
    obtain ⟨p, hp⟩ := Option.ne_none_iff_exists'.mp (s.tags_repo t ht)
    have hsubset : s.repositories.rows ⊆ s'.repositories.rows :=
      fun q hq => (hmem q).mpr (Or.inl hq)
    rw [Table.get_of_subset hsubset hp, Option.mem_some] at hq
    exact hq ▸ hwf.tags_tenant t ht p hp

structure OrganizationEffect (s s' : Store) (tenantID orgName : String) (o : Organization) :
    Prop where
  wf : WellFormed s'
  get : s'.organizations.get o.id = some o
  tenant : o.tenantID = tenantID
  name : o.name = orgName
  organizations : s.organizations.rows ⊆ s'.organizations.rows
  repositories : s'.repositories = s.repositories
  manifests : s'.manifests = s.manifests
  tags : s'.tags = s.tags

theorem getOrCreateOrganization_ok (hwf : WellFormed s) (hplain : '/' ∉ org.toList) {id : String}
    (h : getOrCreateOrganization s tenantID org id = some (s', o)) :
    OrganizationEffect s s' tenantID org o := by
  unfold getOrCreateOrganization at h
  split at h
  · rename_i found hfound
    cases h
    have hhit := List.find?_some hfound
    rw [decide_eq_true_eq] at hhit
    exact ⟨hwf, s.organizations.get_key (mem_of_find?_eq_some hfound), hhit.1, hhit.2,
      List.Subset.refl _, rfl, rfl, rfl⟩
  · rename_i hnone
    obtain ⟨organizations, hins, heq⟩ := Option.map_eq_some_iff.mp h
    cases heq
    obtain ⟨_, hrows⟩ := Table.insert?_eq_some hins
    have hmem : ∀ p, p ∈ organizations.rows ↔
        p ∈ s.organizations.rows ∨ p = ⟨id, tenantID, org⟩ := by
      intro p
      rw [hrows, mem_append, mem_singleton]
    have hfree : ∀ p ∈ s.organizations.rows, p.tenantID = tenantID → p.name ≠ org := by
      intro p hp htenant hname
      have hmiss := List.find?_eq_none.mp hnone p hp
      rw [decide_eq_true_eq] at hmiss
      exact hmiss ⟨htenant, hname⟩
    have hsubset : s.organizations.rows ⊆ organizations.rows :=
      fun p hp => (hmem p).mpr (Or.inl hp)
    refine ⟨⟨?_, ?_, hwf.repos, ?_, hwf.tags_tenant⟩, ?_, rfl, rfl, hsubset, rfl, rfl, rfl⟩
    · intro p hp p' hp' htenant hname
      rcases (hmem p).mp hp with hp | rfl
      · rcases (hmem p').mp hp' with hp' | rfl
        · exact hwf.orgs p hp p' hp' htenant hname
        · exact absurd hname (hfree p hp htenant)
      · rcases (hmem p').mp hp' with hp' | rfl
        · exact absurd hname.symm (hfree p' hp' htenant.symm)
        · rfl
    · intro p hp
      rcases (hmem p).mp hp with hp | rfl
      · exact hwf.plain p hp
      · exact hplain
    · intro q hq
      obtain ⟨p, hp, htenant⟩ := hwf.repos_org q hq
      exact ⟨p, Table.get_of_subset hsubset hp, htenant⟩
    · exact organizations.get_key ((hmem _).mpr (Or.inr rfl))

theorem OrganizationEffect.named (hwf : WellFormed s)
    (h : OrganizationEffect s s' tenantID org o) (hr : r ∈ s.repositories.rows)
    (htenant : r.tenantID = tenantID) (horgID : r.orgID = o.id) (hname : r.name = repo) :
    Named s tenantID org repo r := by
  obtain ⟨p, hp, _⟩ := hwf.repos_org r hr
  have hkept := Table.get_of_subset h.organizations hp
  rw [horgID, h.get, Option.some.injEq] at hkept
  subst hkept
  exact ⟨hr, htenant, hname, o, hp, h.name⟩

structure RepositoryEffect (s s' : Store) (tenantID name : String) (r : RepositoryRow) : Prop where
  wf : WellFormed s'
  mem : r ∈ s'.repositories.rows
  tenant : r.tenantID = tenantID
  tenant_ne : tenantID ≠ ""
  found : getRepositoryByFullName s' tenantID name = some r
  former : getRepositoryByFullName s tenantID name = some r ∨
    (getRepositoryByFullName s tenantID name = none ∧ s.repositories.get r.id = none)
  manifests : s'.manifests = s.manifests
  tags : s'.tags = s.tags

theorem createRepository_found (hwf : WellFormed s) {fresh : Fresh} {name : String}
    (h : createRepository s fresh tenantID name = some (s', r)) :
    RepositoryEffect s s' tenantID name r := by
  unfold createRepository at h
  split at h
  · cases h
  · rename_i org repo hcut
    obtain ⟨rfl, hplain⟩ := cut_eq_some hcut
    split_ifs at h with hne
    split at h
    · cases h
    · rename_i s₁ o horg
      have heffect := getOrCreateOrganization_ok hwf hplain horg
      split at h
      · rename_i q hfound
        split_ifs at h with htenant
        cases h
        have hhit := List.find?_some hfound
        rw [decide_eq_true_eq] at hhit
        have hmem := mem_of_find?_eq_some hfound
        have hbefore : Named s tenantID org repo r := by
          rw [heffect.repositories] at hmem
          exact heffect.named hwf hmem htenant hhit.1 hhit.2
        have hafter : Named s' tenantID org repo r :=
          ⟨hmem, htenant, hhit.2, o, by rw [hhit.1, heffect.get], heffect.name⟩
        exact ⟨heffect.wf, hmem, htenant, hne,
          (getRepositoryByFullName_eq_some_iff heffect.wf hplain).mpr hafter,
          Or.inl ((getRepositoryByFullName_eq_some_iff hwf hplain).mpr hbefore),
          heffect.manifests, heffect.tags⟩
      · rename_i hnone
        obtain ⟨s₂, hins, heq⟩ := Option.map_eq_some_iff.mp h
        cases heq
        obtain ⟨hid, hrows, horgs, hmanifests, htags⟩ := insertRepo_ok hins
        rw [heffect.repositories] at hid
        have hwf' : WellFormed s' :=
          heffect.wf.insertRepo ⟨o, heffect.get, heffect.tenant⟩ hins
        have hmem : newRepository fresh tenantID repo o ∈ s'.repositories.rows := by
          rw [hrows]
          exact mem_append_right _ (mem_singleton.mpr rfl)
        have hafter : Named s' tenantID org repo (newRepository fresh tenantID repo o) :=
          ⟨hmem, rfl, rfl, o, by rw [horgs]; exact heffect.get, heffect.name⟩
        have hbefore : getRepositoryByFullName s tenantID (promoteFullName org repo) = none := by
          cases hfind : getRepositoryByFullName s tenantID (promoteFullName org repo) with
          | none => rfl
          | some q =>
            -- it would be the organization's, and `find?` would have met it
            have hq := (getRepositoryByFullName_eq_some_iff hwf hplain).mp hfind
            obtain ⟨p, hp, hpname⟩ := hq.org
            have hkept : Named s₁ tenantID org repo q :=
              ⟨by rw [heffect.repositories]; exact hq.mem, hq.tenant, hq.name, p,
                Table.get_of_subset heffect.organizations hp, hpname⟩
            have horgID := hkept.orgID_eq heffect.wf (Table.mem_of_get heffect.get)
              heffect.tenant heffect.name
            have hmiss := List.find?_eq_none.mp hnone q hkept.mem
            rw [decide_eq_true_eq] at hmiss
            exact absurd ⟨horgID, hq.name⟩ hmiss
        exact ⟨hwf', hmem, rfl, hne,
          (getRepositoryByFullName_eq_some_iff hwf' hplain).mpr hafter, Or.inr ⟨hbefore, hid⟩,
          hmanifests.trans heffect.manifests, htags.trans heffect.tags⟩

end Names

end OciJanus.Metadata.Names
