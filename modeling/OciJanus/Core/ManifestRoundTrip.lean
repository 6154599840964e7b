import OciJanus.Core.Referrers
import OciJanus.Core.TagWrites
import OciJanus.Metadata.Names
import OciJanus.Proxy.Upstream

/-!
# What is pushed and what is pulled

A long body is cut without an error; a digest reference is not compared with the body's; and the
check of a push leaves the old tag in the cache. No admission policy, and no quarantine.
-/

namespace OciJanus.Core.ManifestRoundTrip

open Core.Referrers (Config ReferrerStore Repo PutError putReference registerReferrer)
open Core.Storage
open Core.TagWrites (cacheTTL getRepository)
open Core.Upload (digestOf emptyDigest)
open Core.UploadHandlers (checkQuota matchesDigestRE)
open Metadata Metadata.Names
open Proxy.Upstream (limitReader limitReader_content)
open Verified GoStrings KeyedTable Sha256 Utf8

structure State where
  store : Store
  referrers : ReferrerStore
  now : Int
  tagCache : ExpiringStore.Store (String × String × String) Tag
  repoCache : ExpiringStore.Store (String × String) RepositoryRow
  manifestCache : ExpiringStore.Store (String × String × String) Manifest

def State.atTime (s : State) (later : Int) : State := { s with now := later }

inductive Call where
  | createRepository
  | getRepositoryByName
  | getRepository
  | getTag
  | putTag
  | getManifest
  | putManifest

structure Env where
  fails : Call → Bool
  quotaUsage : Option (Int × Int)
  fresh : Fresh

structure PutRequest where
  (tenantID name reference contentType : String)
  body : Reader

structure Response where
  status : Nat
  error : Option (String × String) := none
  contentType : Option String := none
  contentDigest : Option String := none
  contentLength : Option Nat := none
  location : Option String := none
  ociSubject : Option String := none
  body : Bytes := []
  deriving DecidableEq

def ociError (statusCode : Nat) (code message : String) : Response where
  status := statusCode
  error := some (code, message)

def internalError : Response := ociError 500 "UNKNOWN" "internal error"

def maxManifestBodyBytes : Nat := 4 * 1024 * 1024

def PutRequest.read (req : PutRequest) : Bytes := req.body.content.take maxManifestBodyBytes

def maxManifestJSONBytes : Nat := 4194304

def matchesComponent (s : String) : Bool :=
  (s.toList.splitOnP fun c => c == '.' || c == '_' || c == '-').all fun part =>
    part ≠ [] && part.all fun c => c.isDigit || ('a' ≤ c && c ≤ 'z')

def validateName (name : String) : Bool :=
  (cut '/' name).any fun parts => matchesComponent parts.1 && matchesComponent parts.2

section Push

variable (cfg : Config) (env : Env)

def afterGetTag (s : State) (tag : Option Tag) (tenantID repoID newDigest : String) :
    Bool × State :=
  match tag with
  | none => (true, s)
  | some t =>
    if t.manifestDigest = newDigest then (true, s)
    else if t.immutable then (false, s)
    else if env.fails .getRepository then (true, s)
    else
      let repo := s.repoCache.readThrough s.now (tenantID, repoID) cacheTTL
        (getRepository s.store tenantID repoID)
      (!repo.1.any (·.immutableTags), { s with repoCache := repo.2 })

def checkTagImmutable (s : State) (tenantID repoID tagName newDigest : String) : Bool × State :=
  if env.fails .getTag then (true, s)
  else
    let tag := s.tagCache.readThrough s.now (tenantID, repoID, tagName) cacheTTL
      (s.store.getTag tenantID repoID tagName)
    afterGetTag env { s with tagCache := tag.2 } tag.1 tenantID repoID newDigest

def checkReference (s : State) (repo : Repo) (reference digest : String) : Bool × State :=
  if matchesDigestRE reference then (true, s)
  else checkTagImmutable env s repo.tenantID repo.repoID reference digest

def writeManifest (s : State) (repo : Repo) (reference mediaType : String) (rawJSON : Bytes) :
    Except PutError (String × String) × State :=
  let digest := digestOf rawJSON
  if env.fails .putManifest || maxManifestJSONBytes < rawJSON.length then
    (.error .putManifest, s)
  else
    match s.store.putManifest cfg.docs s.now repo.tenantID repo.repoID digest mediaType rawJSON with
    | .error _ => (.error .putManifest, s)
    | .ok store =>
      if !matchesDigestRE reference && env.fails .putTag then
        (.error .putTag, { s with store := store })
      else
        match putReference repo store reference digest with
        | .error _ => (.error .putTag, { s with store := store })
        | .ok store' =>
          let registered := registerReferrer cfg repo s.referrers mediaType digest rawJSON
          (.ok (digest, registered.1), { s with store := store', referrers := registered.2 })

def putManifest (s : State) (repo : Repo) (reference mediaType : String) (rawJSON : Bytes) :
    Except PutError (String × String) × State :=
  let checked := checkReference env s repo reference (digestOf rawJSON)
  if checked.1 then writeManifest cfg env checked.2 repo reference mediaType rawJSON
  else (.error .immutable, checked.2)

def handlePutManifest (s : State) (req : PutRequest) : Response × State :=
  if !validateName req.name then
    (ociError 400 "NAME_INVALID" "invalid repository name", s)
  else if !isAllowedManifestMediaType req.contentType then
    (ociError 400 "MANIFEST_INVALID" "unsupported media type", s)
  else
    let read := limitReader maxManifestBodyBytes req.body
    if !read.complete then (ociError 500 "UNKNOWN" "failed to read body", s)
    else if !checkQuota env.quotaUsage read.content.length then
      (ociError 403 "DENIED" "tenant storage quota exceeded", s)
    else if env.fails .createRepository then (internalError, s)
    else
      match createRepository s.store env.fresh req.tenantID req.name with
      | none => (internalError, s)
      | some (store, repo) =>
        match putManifest cfg env { s with store := store } ⟨req.tenantID, repo.id, req.name⟩
            req.reference req.contentType read.content with
        | (.ok (digest, subjectDigest), s') =>
          ({ status := 201
             contentDigest := some digest
             location := some ("/v2/" ++ req.name ++ "/manifests/" ++ digest)
             ociSubject := if subjectDigest = "" then none else some subjectDigest }, s')
        | (.error .immutable, s') =>
          (ociError 400 "MANIFEST_INVALID" ("tag is immutable (repo immutable_tags=true or " ++
            "per-tag pin set); push to a new tag or unpin first"), s')
        | (.error _, s') => (internalError, s')

end Push

inductive GetError where
  | notFound
  | internal

def manifestTTL : Int := 300 * 1000000000

section Pull

variable (fails : Call → Bool) (s : State)

def repositoryGetManifest (tenantID repoID reference : String) : Option Manifest :=
  if hasPrefix reference "sha256:" then s.store.manifestRow tenantID repoID reference
  else s.store.resolveTag tenantID repoID reference

def resolveReference (tenantID repoID reference : String) : Except GetError String :=
  if matchesDigestRE reference then .ok reference
  else if fails .getTag then .error .internal
  else
    match (s.tagCache.readThrough s.now (tenantID, repoID, reference) cacheTTL
        (s.store.getTag tenantID repoID reference)).1 with
    | none => .error .notFound
    | some t => .ok t.manifestDigest

def getManifest (tenantID repoID reference : String) : Except GetError Manifest :=
  match resolveReference fails s tenantID repoID reference with
  | .error e => .error e
  | .ok digest =>
    if fails .getManifest then .error .internal
    else
      match (s.manifestCache.readThrough s.now (tenantID, repoID, digest) manifestTTL
          (repositoryGetManifest s tenantID repoID digest)).1 with
      | none => .error .notFound
      | some m => .ok m

def handleGetManifest (tenantID name reference : String) : Response :=
  if fails .getRepositoryByName || tenantID = "" || name = "" then internalError
  else
    match getRepositoryByFullName s.store tenantID name with
    | none => ociError 404 "NAME_UNKNOWN" "repository not found"
    | some repo =>
      match getManifest fails s tenantID repo.id reference with
      | .error .notFound => ociError 404 "MANIFEST_UNKNOWN" "manifest unknown"
      | .error .internal => internalError
      | .ok m =>
        { status := 200
          contentType := some m.mediaType
          contentDigest := some m.digest
          contentLength := some m.rawJSON.length
          body := m.rawJSON }

end Pull

def Pulled (r : Response) (content : Bytes) : Prop :=
  r.status = 200 ∧ r.body = content ∧ r.contentDigest = some (digestOf content)
  deriving Decidable

def cold (store : Store) (referrers : ReferrerStore) (now : Int) : State where
  store := store
  referrers := referrers
  now := now
  tagCache := .empty
  repoCache := .empty
  manifestCache := .empty

def formerTag (store : Store) (tenantID name reference : String) : Option Tag :=
  (getRepositoryByFullName store tenantID name).bind fun r =>
    store.getTag tenantID r.id reference

def Answered (fails : Call → Bool) (reference : String) : Prop :=
  fails .getRepositoryByName = false ∧
    (matchesDigestRE reference = false → fails .getTag = false) ∧ fails .getManifest = false
  deriving Decidable

def ReferenceFits (env : Env) (store : Store) (now later : Int) (req : PutRequest) : Prop :=
  if matchesDigestRE req.reference then req.reference = digestOf req.body.content
  else
    ∀ t ∈ formerTag store req.tenantID req.name req.reference,
      t.manifestDigest = digestOf req.body.content ∨ env.fails .getTag = true ∨
        now + cacheTTL ≤ later
  deriving Decidable

structure Stored (s : Store) : Prop where
  wf : WellFormed s
  digests : ∀ t ∈ s.tags.rows, hasPrefix t.manifestDigest "sha256:" = true
  documents : ∀ m ∈ s.manifests.rows, m.rawJSON.length ≤ maxManifestBodyBytes

theorem PutRequest.read_eq (req : PutRequest)
    (h : req.body.content.length ≤ maxManifestBodyBytes) : req.read = req.body.content :=
  List.take_of_length_le h

section Effects

variable {cfg : Config} {env : Env} {s s' : State} {repo : Repo} {reference mediaType : String}
  {rawJSON : Bytes}

structure CheckEffect (env : Env) (s s' : State) (repo : Repo) (reference : String) : Prop where
  store : s'.store = s.store
  now : s'.now = s.now
  manifestCache : s'.manifestCache = s.manifestCache
  tagCache : matchesDigestRE reference = false → ∀ later,
    s'.tagCache.get later (repo.tenantID, repo.repoID, reference) =
      if env.fails .getTag = false ∧ later < s.now + cacheTTL then
        s.store.getTag repo.tenantID repo.repoID reference
      else none

theorem afterGetTag_eq (env : Env) (s : State) (tag : Option Tag)
    (tenantID repoID digest : String) :
    ∃ repoCache, (afterGetTag env s tag tenantID repoID digest).2 =
      { s with repoCache := repoCache } := by
  unfold afterGetTag
  cases tag with
  | none => exact ⟨s.repoCache, rfl⟩
  | some t =>
    dsimp only
    split_ifs
    · exact ⟨s.repoCache, rfl⟩
    · exact ⟨s.repoCache, rfl⟩
    · exact ⟨s.repoCache, rfl⟩
    · exact ⟨_, rfl⟩

theorem checkTagImmutable_effect (hcold : s.tagCache = .empty) (digest : String) :
    CheckEffect env s (checkTagImmutable env s repo.tenantID repo.repoID reference digest).2 repo
      reference := by
  unfold checkTagImmutable
  cases hfails : env.fails .getTag with
  | true =>
    refine ⟨rfl, rfl, rfl, fun _ later => ?_⟩
    rw [if_pos rfl, hcold, if_neg (by simp [hfails])]
    rfl
  | false =>
    rw [if_neg Bool.false_ne_true, hcold]
    dsimp only
    obtain ⟨repoCache, hafter⟩ := afterGetTag_eq env { s with tagCache := _ } _ _ _ _
    rw [hafter]
    refine ⟨rfl, rfl, rfl, fun _ later => ?_⟩
    rw [(ExpiringStore.Store.readThrough_empty _ _ _ _).2 later]
    simp only [hfails, true_and]

theorem checkReference_effect (hcold : s.tagCache = .empty) (digest : String) :
    CheckEffect env s (checkReference env s repo reference digest).2 repo reference := by
  unfold checkReference
  split_ifs with hre
  · refine ⟨rfl, rfl, rfl, fun htag => ?_⟩
    rw [hre] at htag
    cases htag
  · exact checkTagImmutable_effect hcold digest

structure WriteEffect (cfg : Config) (s s' : State) (repo : Repo) (reference mediaType : String)
    (rawJSON : Bytes) : Prop where
  now : s'.now = s.now
  tagCache : s'.tagCache = s.tagCache
  manifestCache : s'.manifestCache = s.manifestCache
  writes : ∃ store,
    s.store.putManifest cfg.docs s.now repo.tenantID repo.repoID (digestOf rawJSON) mediaType
      rawJSON = .ok store ∧ putReference repo store reference (digestOf rawJSON) = .ok s'.store

theorem writeManifest_ok {result : String × String}
    (h : writeManifest cfg env s repo reference mediaType rawJSON = (.ok result, s')) :
    WriteEffect cfg s s' repo reference mediaType rawJSON := by
  unfold writeManifest at h
  dsimp only at h
  split at h
  · cases h
  split at h
  · cases h
  rename_i store hput
  split at h
  · cases h
  split at h
  · cases h
  rename_i store' href
  cases h
  exact ⟨rfl, rfl, rfl, store, hput, href⟩

structure Created (cfg : Config) (env : Env) (s s' : State) (req : PutRequest) (store : Store)
    (r : RepositoryRow) (checked : State) : Prop where
  name : validateName req.name = true
  repository : createRepository s.store env.fresh req.tenantID req.name = some (store, r)
  check : checked = (checkReference env { s with store := store }
    ⟨req.tenantID, r.id, req.name⟩ req.reference (digestOf req.read)).2
  write : WriteEffect cfg checked s' ⟨req.tenantID, r.id, req.name⟩ req.reference req.contentType
    req.read

theorem handlePutManifest_created {req : PutRequest}
    (h : (handlePutManifest cfg env s req).1.status = 201) :
    ∃ store r checked,
      Created cfg env s (handlePutManifest cfg env s req).2 req store r checked := by
  unfold handlePutManifest at h ⊢
  dsimp only at h ⊢
  split_ifs at h ⊢ with hname
  iterate 5 (· cases h)
  split at h
  · cases h
  · next store r hrepo =>
      refine ⟨store, r, _, by simpa using hname, hrepo, rfl, ?_⟩
      unfold putManifest at h ⊢
      dsimp only at h ⊢
      split_ifs at h ⊢
      · split at h
        · next hwrite =>
            rw [limitReader_content] at hwrite
            exact writeManifest_ok hwrite
        · cases h
        · cases h
      · cases h

end Effects

section Push

variable {cfg : Config} {env : Env} {store : Store} {referrers : ReferrerStore} {now : Int}
  {s' : State} {req : PutRequest} {r : RepositoryRow}

theorem getTag_eq_formerTag {created : Store}
    (h : RepositoryEffect store created req.tenantID req.name r) (reference : String) :
    created.getTag req.tenantID r.id reference =
      formerTag store req.tenantID req.name reference := by
  unfold formerTag Store.getTag
  rw [h.tags]
  rcases h.former with hfound | ⟨hnone, hid⟩
  · rw [hfound, Option.bind_some]
  · rw [hnone, Option.bind_none]
    cases htag : store.tags.get (r.id, reference) with
    | none => rfl
    | some t =>
      have hrepo := store.tags_repo t (Table.mem_of_get htag)
      rw [(Store.tags_get_key htag).1] at hrepo
      exact absurd hid hrepo

structure PushEffect (env : Env) (store : Store) (now : Int) (s' : State) (req : PutRequest)
    (r : RepositoryRow) : Prop where
  tenant_ne : req.tenantID ≠ ""
  name_ne : req.name ≠ ""
  found : getRepositoryByFullName s'.store req.tenantID req.name = some r
  row : ∃ m, s'.store.manifestRow req.tenantID r.id (digestOf req.read) = some m ∧
    m.rawJSON = req.read
  documents : ∀ m ∈ s'.store.manifests.rows, m.rawJSON.length ≤ maxManifestBodyBytes
  tag : matchesDigestRE req.reference = false →
    ∃ t, s'.store.getTag req.tenantID r.id req.reference = some t ∧
      t.manifestDigest = digestOf req.read
  tagCache : matchesDigestRE req.reference = false → ∀ later,
    s'.tagCache.get later (req.tenantID, r.id, req.reference) =
      if env.fails .getTag = false ∧ later < now + cacheTTL then
        formerTag store req.tenantID req.name req.reference
      else none
  manifestCache : s'.manifestCache = .empty

theorem putReference_effect {repo : Repo} {s t : Store} {reference digest : String}
    (hwf : WellFormed s) (hr : r ∈ s.repositories.rows) (hid : repo.repoID = r.id)
    (htenant : r.tenantID = repo.tenantID) (h : putReference repo s reference digest = .ok t) :
    t.organizations = s.organizations ∧ t.repositories = s.repositories ∧
      t.manifests = s.manifests ∧ (matchesDigestRE reference = false →
        ∃ u, t.getTag repo.tenantID repo.repoID reference = some u ∧
          u.manifestDigest = digest) := by
  unfold putReference at h
  split_ifs at h with hre
  · cases h
    refine ⟨rfl, rfl, rfl, fun htag => ?_⟩
    rw [hre] at htag
    cases htag
  · have hput := Store.putTag_ok h
    rw [hid] at hput
    obtain ⟨u, hu, hdigest, _⟩ := hput.row
    have hown : u.tenantID = repo.tenantID := putTag_tenant hwf hput hr htenant hu
    refine ⟨hput.organizations, hput.repositories, hput.manifests, fun _ => ⟨u, ?_, hdigest⟩⟩
    rw [hid]
    exact Store.getTag_eq_some.mpr ⟨hu, hown⟩

theorem push_effect (hstored : Stored store)
    (h : (handlePutManifest cfg env (cold store referrers now) req).1.status = 201) :
    ∃ r, PushEffect env store now (handlePutManifest cfg env (cold store referrers now) req).2 req
      r := by
  obtain ⟨created, r, checked, hcreated⟩ := handlePutManifest_created h
  have hrepo := createRepository_found hstored.wf hcreated.repository
  have hcheck : CheckEffect env { cold store referrers now with store := created } checked
      ⟨req.tenantID, r.id, req.name⟩ req.reference := by
    rw [hcreated.check]
    exact checkReference_effect rfl _
  obtain ⟨hnow, htagCache, hmanifestCache, written, hput, href⟩ := hcreated.write
  have heffect := Store.putManifest_ok hput
  rw [hcheck.store] at heffect
  have hwf : WellFormed written :=
    hrepo.wf.congr heffect.organizations heffect.repositories heffect.tags
  have hmem : r ∈ written.repositories.rows := by
    rw [heffect.repositories]
    exact hrepo.mem
  obtain ⟨horgs, hrepos, hmanifests, htag⟩ :=
    putReference_effect hwf hmem rfl hrepo.tenant href
  refine ⟨r, hrepo.tenant_ne, ?_, ?_, ?_, ?_, htag, ?_, ?_⟩
  · intro hempty
    have hname := hcreated.name
    rw [hempty] at hname
    exact absurd hname (by decide)
  · rw [getRepositoryByFullName_congr (horgs.trans heffect.organizations)
      (hrepos.trans heffect.repositories)]
    exact hrepo.found
  · obtain ⟨m, hm, htenant, _, hraw, _⟩ := heffect.row
    refine ⟨m, Store.manifestRow_eq_some.mpr ⟨?_, htenant⟩, hraw⟩
    rw [hmanifests]
    exact hm
  · intro m hm
    rw [hmanifests] at hm
    have hget := written.manifests.get_key hm
    by_cases hkey : (m.repoID, m.digest) = (r.id, digestOf req.read)
    · obtain ⟨row, hrow, _, _, hraw, _⟩ := heffect.row
      rw [hkey, hrow, Option.some.injEq] at hget
      rw [← hget, hraw]
      exact List.length_take_le _ _
    · rw [heffect.others _ hkey] at hget
      exact hstored.documents m (hrepo.manifests ▸ Table.mem_of_get hget)
  · intro hre later
    rw [htagCache, hcheck.tagCache hre later, ← getTag_eq_formerTag hrepo req.reference]
    rfl
  · rw [hmanifestCache, hcheck.manifestCache]
    rfl

end Push

section Pull

variable {fails : Call → Bool} {s : State} {tenantID name reference : String} {r : RepositoryRow}

theorem pulled_handleGetManifest_iff (htenant : tenantID ≠ "") (hname : name ≠ "")
    (hrepo : getRepositoryByFullName s.store tenantID name = some r)
    (hcold : s.manifestCache = .empty) (content : Bytes) :
    Pulled (handleGetManifest fails s tenantID name reference) content ↔
      fails .getRepositoryByName = false ∧ fails .getManifest = false ∧
        ∃ digest m, resolveReference fails s tenantID r.id reference = .ok digest ∧
          repositoryGetManifest s tenantID r.id digest = some m ∧
          m.rawJSON = content ∧ m.digest = digestOf content := by
  have hread : ∀ digest, (s.manifestCache.readThrough s.now (tenantID, r.id, digest) manifestTTL
      (repositoryGetManifest s tenantID r.id digest)).1 =
        repositoryGetManifest s tenantID r.id digest := by
    intro digest
    rw [hcold]
    rfl
  unfold handleGetManifest getManifest
  simp only [htenant, hname, hrepo, hread, decide_false, Bool.or_false]
  cases hbyName : fails .getRepositoryByName with
  | true => simp [Pulled, internalError, ociError]
  | false =>
    cases hresolve : resolveReference fails s tenantID r.id reference with
    | error e => cases e <;> simp [Pulled, internalError, ociError]
    | ok digest =>
      cases hget : fails .getManifest with
      | true => simp [Pulled, internalError, ociError]
      | false =>
        cases hrow : repositoryGetManifest s tenantID r.id digest with
        | none => simp [hrow, Pulled, ociError]
        | some m => simp [hrow, Pulled]

theorem repositoryGetManifest_of_digest {repoID digest : String}
    (h : hasPrefix digest "sha256:" = true) :
    repositoryGetManifest s tenantID repoID digest =
      s.store.manifestRow tenantID repoID digest := by
  unfold repositoryGetManifest
  rw [if_pos h]

theorem resolveReference_tag_iff {repoID digest : String}
    (hre : matchesDigestRE reference = false) :
    resolveReference fails s tenantID repoID reference = .ok digest ↔
      fails .getTag = false ∧ ∃ t, (s.tagCache.get s.now (tenantID, repoID, reference)).or
        (s.store.getTag tenantID repoID reference) = some t ∧ t.manifestDigest = digest := by
  unfold resolveReference
  simp only [hre, Bool.false_eq_true, if_false, ExpiringStore.Store.readThrough_fst]
  cases fails .getTag with
  | true => simp
  | false =>
    cases (s.tagCache.get s.now (tenantID, repoID, reference)).or
        (s.store.getTag tenantID repoID reference) with
    | none => simp
    | some t => simp

end Pull

theorem hasPrefix_digestOf (content : Bytes) : hasPrefix (digestOf content) "sha256:" = true :=
  hasPrefix_iff.mpr ⟨_, rfl⟩

theorem hasPrefix_of_matchesDigestRE {reference : String} (h : matchesDigestRE reference = true) :
    hasPrefix reference "sha256:" = true := by
  unfold matchesDigestRE at h
  rw [Bool.and_eq_true, Bool.and_eq_true] at h
  exact h.1.1

section RoundTrip

variable {env : Env} {store : Store} {now later : Int} {s : State} {req : PutRequest}
  {r : RepositoryRow} {fails : Call → Bool}

theorem PushEffect.resolved_tag (h : PushEffect env store now s req r)
    (hre : matchesDigestRE req.reference = false) (later : Int) :
    ∃ u, u.manifestDigest = digestOf req.read ∧
      (s.tagCache.get later (req.tenantID, r.id, req.reference)).or
          (s.store.getTag req.tenantID r.id req.reference) =
        some (if env.fails .getTag = false ∧ later < now + cacheTTL then
          (formerTag store req.tenantID req.name req.reference).getD u else u) := by
  obtain ⟨u, hu, hdigest⟩ := h.tag hre
  refine ⟨u, hdigest, ?_⟩
  rw [h.tagCache hre later, hu]
  split_ifs
  · cases formerTag store req.tenantID req.name req.reference <;> rfl
  · rfl

theorem mem_of_formerTag {tenantID name reference : String} {t : Tag}
    (h : formerTag store tenantID name reference = some t) : t ∈ store.tags.rows := by
  obtain ⟨q, _, htag⟩ := Option.bind_eq_some_iff.mp h
  exact Table.mem_of_get (Store.getTag_eq_some.mp htag).1

theorem PushEffect.hasPrefix_resolved (hstored : Stored store)
    (h : PushEffect env store now s req r) {digest : String}
    (hresolve : resolveReference fails (s.atTime later) req.tenantID r.id req.reference =
      .ok digest) : hasPrefix digest "sha256:" = true := by
  cases hre : matchesDigestRE req.reference with
  | true =>
    unfold resolveReference at hresolve
    rw [if_pos hre] at hresolve
    cases hresolve
    exact hasPrefix_of_matchesDigestRE hre
  | false =>
    obtain ⟨_, t, ht, rfl⟩ := (resolveReference_tag_iff hre).mp hresolve
    obtain ⟨u, hu, hresolved⟩ := h.resolved_tag hre later
    obtain rfl := Option.some.inj (hresolved.symm.trans ht)
    have hwritten : hasPrefix u.manifestDigest "sha256:" = true := by
      rw [hu]
      exact hasPrefix_digestOf _
    split_ifs
    · cases hformer : formerTag store req.tenantID req.name req.reference with
      | none => exact hwritten
      | some t => exact hstored.digests t (mem_of_formerTag hformer)
    · exact hwritten

theorem PushEffect.resolves_iff (h : PushEffect env store now s req r)
    (hfull : req.body.content.length ≤ maxManifestBodyBytes) :
    resolveReference fails (s.atTime later) req.tenantID r.id req.reference =
        .ok (digestOf req.body.content) ↔
      (matchesDigestRE req.reference = false → fails .getTag = false) ∧
        ReferenceFits env store now later req := by
  cases hre : matchesDigestRE req.reference with
  | true =>
    unfold resolveReference ReferenceFits
    simp [hre]
  | false =>
    obtain ⟨u, hu, hresolved⟩ := h.resolved_tag hre later
    rw [req.read_eq hfull] at hu
    rw [resolveReference_tag_iff hre]
    unfold ReferenceFits
    simp only [hre, Bool.false_eq_true, if_false, forall_const]
    refine and_congr_right fun _ => ?_
    show (∃ t, (s.tagCache.get later _).or (s.store.getTag _ _ _) = some t ∧ _) ↔ _
    rw [hresolved]
    by_cases hcached : env.fails .getTag = false ∧ later < now + cacheTTL
    · have hexpired : ¬ now + cacheTTL ≤ later := by
        have := hcached.2
        omega
      cases formerTag store req.tenantID req.name req.reference with
      | none => simp [hcached, hu]
      | some t => simp [hcached, hexpired]
    · have hmissed : env.fails .getTag = true ∨ now + cacheTTL ≤ later := by
        rcases not_and_or.mp hcached with hfails | hlate
        · exact Or.inl (by simpa using hfails)
        · exact Or.inr (by omega)
      simp [hcached, hu, hmissed]

end RoundTrip

/-- **When a pull gives what was pushed.** -/
theorem pulled_iff (cfg : Config) (env : Env) {store : Store} (hstored : Stored store)
    (referrers : ReferrerStore) (now : Int) {req : PutRequest}
    (h : (handlePutManifest cfg env (cold store referrers now) req).1.status = 201)
    (fails : Call → Bool) (later : Int) :
    Pulled (handleGetManifest fails
        ((handlePutManifest cfg env (cold store referrers now) req).2.atTime later)
        req.tenantID req.name req.reference) req.body.content ↔
      req.body.content.length ≤ maxManifestBodyBytes ∧ Answered fails req.reference ∧
        ReferenceFits env store now later req := by
  obtain ⟨r, hpush⟩ := push_effect hstored h
  have hfound : getRepositoryByFullName
      ((handlePutManifest cfg env (cold store referrers now) req).2.atTime later).store
      req.tenantID req.name = some r := hpush.found
  rw [pulled_handleGetManifest_iff hpush.tenant_ne hpush.name_ne hfound hpush.manifestCache]
  constructor
  · rintro ⟨hbyName, hget, digest, m, hresolve, hrow, hbody, hdigest⟩
    rw [repositoryGetManifest_of_digest (hpush.hasPrefix_resolved hstored hresolve)] at hrow
    have hstoredRow := (Store.manifestRow_eq_some.mp hrow).1
    have hfull : req.body.content.length ≤ maxManifestBodyBytes := by
      rw [← hbody]
      exact hpush.documents m (Table.mem_of_get hstoredRow)
    rw [← (Store.manifests_get_key hstoredRow).2, hdigest] at hresolve
    obtain ⟨htag, hfits⟩ := (hpush.resolves_iff hfull).mp hresolve
    exact ⟨hfull, ⟨hbyName, htag, hget⟩, hfits⟩
  · rintro ⟨hfull, ⟨hbyName, htag, hget⟩, hfits⟩
    obtain ⟨m, hrow, hbody⟩ := hpush.row
    rw [req.read_eq hfull] at hrow hbody
    refine ⟨hbyName, hget, _, m, (hpush.resolves_iff hfull).mpr ⟨htag, hfits⟩, ?_, hbody, ?_⟩
    · rw [repositoryGetManifest_of_digest (hasPrefix_digestOf _)]
      exact hrow
    · exact (Store.manifests_get_key (Store.manifestRow_eq_some.mp hrow).1).2

def emptyRepository : Store :=
  Store.fresh (.single ⟨"o", "t", "acme"⟩) (.single ⟨"r", "o", "t", "app", false, 0, 0⟩)

theorem stored_emptyRepository : Stored emptyRepository where
  wf := ⟨by decide, by decide, by decide, by decide, by decide⟩
  digests := by decide
  documents := by decide

def sampleConfig : Config := ⟨indexDocuments, fun _ => none⟩

def sampleEnv : Env := ⟨fun _ => false, some (0, 107374182400), ⟨"o2", "r2", 0⟩⟩

def pushObject (reference : String) : PutRequest :=
  ⟨"t", "acme/app", reference, mediaTypeOCIManifest, ⟨[stringBytes "\x7b\x7d"], true⟩⟩

def pushedObject (reference : String) : Response × State :=
  handlePutManifest sampleConfig sampleEnv (cold emptyRepository (fun _ => []) 0)
    (pushObject reference)

theorem pulled_iff_new_tag :
    (pushedObject "v1").1.status = 201 ∧
      Pulled (handleGetManifest (fun _ => false) ((pushedObject "v1").2.atTime 0) "t" "acme/app"
        "v1") (stringBytes "\x7b\x7d") := by
  have hcreated : (pushedObject "v1").1.status = 201 := by decide +kernel
  exact ⟨hcreated, (pulled_iff sampleConfig sampleEnv stored_emptyRepository (fun _ => []) 0
    hcreated (fun _ => false) 0).mpr (by decide +kernel)⟩

theorem pushed_not_pulled :
    matchesDigestRE emptyDigest = true ∧
    (pushedObject emptyDigest).1.status = 201 ∧
    handleGetManifest (fun _ => false) ((pushedObject emptyDigest).2.atTime 0) "t" "acme/app"
      emptyDigest = ociError 404 "MANIFEST_UNKNOWN" "manifest unknown" ∧
    ¬ Pulled (handleGetManifest (fun _ => false) ((pushedObject emptyDigest).2.atTime 0) "t"
      "acme/app" emptyDigest) (stringBytes "\x7b\x7d") := by
  decide +kernel

end OciJanus.Core.ManifestRoundTrip
