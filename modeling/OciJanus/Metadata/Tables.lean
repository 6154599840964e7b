import OciJanus.Verified.KeyedTable
import OciJanus.Verified.Run
import OciJanus.Verified.Utf8

/-!
# The tables of registry-metadata

Keys are the `UNIQUE` constraints, references fields of `Store`. What `encoding/json` reads is a
parameter (`Documents`).
-/

namespace OciJanus.Metadata

open Verified KeyedTable Run Sha256 Utf8 List

structure Organization where
  (id tenantID name : String)
  deriving DecidableEq

structure RepositoryRow where
  (id orgID tenantID name : String)
  immutableTags : Bool
  (storageUsed createdAt : Int)
  deriving DecidableEq

structure Manifest where
  id : Nat
  (repoID tenantID digest mediaType : String)
  rawJSON : Bytes
  (imageSizeBytes createdAt : Int)
  (lastPulledAt retentionPendingDeleteAt : Option Int)
  deriving DecidableEq

structure Tag where
  (repoID tenantID name manifestDigest : String)
  immutable : Bool
  deriving DecidableEq

structure ManifestChild where
  (repoID tenantID parentDigest childDigest : String)

abbrev Organizations := Table Organization String (·.id)

abbrev Repositories := Table RepositoryRow String (·.id)

abbrev Manifests := Table Manifest (String × String) fun m => (m.repoID, m.digest)

abbrev Tags := Table Tag (String × String) fun t => (t.repoID, t.name)

abbrev ManifestChildren :=
  Table ManifestChild (String × String × String) fun c =>
    (c.tenantID, c.parentDigest, c.childDigest)

structure Store where
  organizations : Organizations
  repositories : Repositories
  manifests : Manifests
  tags : Tags
  manifestChildren : ManifestChildren
  nextID : Nat
  manifests_repo : ∀ m ∈ manifests.rows, repositories.get m.repoID ≠ none
  tags_repo : ∀ t ∈ tags.rows, repositories.get t.repoID ≠ none
  children_repo : ∀ c ∈ manifestChildren.rows, repositories.get c.repoID ≠ none

def Store.fresh (organizations : Organizations) (repositories : Repositories) : Store where
  organizations := organizations
  repositories := repositories
  manifests := ⟨[], nodup_nil⟩
  tags := ⟨[], nodup_nil⟩
  manifestChildren := ⟨[], nodup_nil⟩
  nextID := 0
  manifests_repo _ h := nomatch h
  tags_repo _ h := nomatch h
  children_repo _ h := nomatch h

inductive RepoError where
  | notFound
  | immutableTag
  | internal
  deriving DecidableEq

structure Documents where
  manifestDigests : Bytes → Option (List String)
  imageSize : Bytes → Int
  manifestDigests_nil : manifestDigests [] = none

def Documents.Lists (docs : Documents) (rawJSON : Bytes) (child : String) : Prop :=
  child ≠ "" ∧ ∃ digests ∈ docs.manifestDigests rawJSON, child ∈ digests
  deriving Decidable

def Documents.oneIndex (index : Bytes) (digests : List String) (h : index ≠ []) : Documents where
  manifestDigests raw := if raw = index then some digests else none
  imageSize _ := 0
  manifestDigests_nil := if_neg (Ne.symm h)

def indexBody : Bytes := stringBytes "\x7b\"manifests\":[\x7b\"digest\":\"sha256:c\"\x7d]\x7d"

def indexDocuments : Documents := .oneIndex indexBody ["sha256:c"] (by decide)

def maxManifestEntries : Nat := 1000

def mediaTypeOCIIndex : String := "application/vnd.oci.image.index.v1+json"

def mediaTypeOCIManifest : String := "application/vnd.oci.image.manifest.v1+json"

def mediaTypeDockerManifestV2 : String := "application/vnd.docker.distribution.manifest.v2+json"

def mediaTypeBase (mt : String) : String := String.ofList (mt.toList.takeWhile (· ≠ ';'))

def isAllowedManifestMediaType (mt : String) : Bool :=
  mediaTypeBase mt ∈ [mediaTypeDockerManifestV2, mediaTypeOCIManifest, mediaTypeOCIIndex]

def mediaTypeDockerManifestList : String :=
  "application/vnd.docker.distribution.manifest.list.v2+json"

def distinctDigests (seen : List String) : List String → List String
  | [] => []
  | d :: ds =>
    if d = "" then distinctDigests seen ds
    else if d ∈ seen then distinctDigests seen ds
    else d :: distinctDigests (d :: seen) ds

theorem mem_distinctDigests {seen ds : List String} {d : String} :
    d ∈ distinctDigests seen ds ↔ d ≠ "" ∧ d ∉ seen ∧ d ∈ ds := by
  induction ds generalizing seen with
  | nil => simp [distinctDigests]
  | cons e es ih =>
    unfold distinctDigests
    by_cases he : e = ""
    · rw [if_pos he, ih]
      subst he
      simp only [mem_cons]
      tauto
    · rw [if_neg he]
      by_cases hseen : e ∈ seen
      · rw [if_pos hseen, ih]
        constructor
        · rintro ⟨hd, hns, hmem⟩
          exact ⟨hd, hns, mem_cons_of_mem _ hmem⟩
        · rintro ⟨hd, hns, hmem⟩
          rcases mem_cons.mp hmem with rfl | hmem
          · exact absurd hseen hns
          · exact ⟨hd, hns, hmem⟩
      · rw [if_neg hseen, mem_cons, ih, mem_cons, mem_cons]
        by_cases hd : d = e
        · subst hd
          simp [he, hseen]
        · simp [hd]

def parseChildManifestDigests (docs : Documents) (rawJSON : Bytes) (mediaType : String) :
    List String :=
  if mediaType = mediaTypeOCIIndex ∨ mediaType = mediaTypeDockerManifestList then
    if rawJSON = [] then []
    else
      match docs.manifestDigests rawJSON with
      | none => []
      | some entries => distinctDigests [] (entries.take maxManifestEntries)
  else []

def ManifestChildren.record (t : ManifestChildren) (repoID tenantID digest : String)
    (children : List String) : ManifestChildren :=
  children.foldl (fun t c => t.insertNew ⟨repoID, tenantID, digest, c⟩) t

theorem ManifestChildren.mem_record {t : ManifestChildren} {repoID tenantID digest : String}
    {children : List String} {e : ManifestChild} :
    e ∈ (t.record repoID tenantID digest children).rows ↔
      e ∈ t.rows ∨ ∃ c ∈ children, e = ⟨repoID, tenantID, digest, c⟩ ∧
        t.get (tenantID, digest, c) = none := by
  induction children generalizing t with
  | nil => simp [record]
  | cons c cs ih =>
    show e ∈ (ManifestChildren.record (t.insertNew ⟨repoID, tenantID, digest, c⟩)
      repoID tenantID digest cs).rows ↔ _
    rw [ih, Table.mem_insertNew]
    simp only [Table.get_insertNew_eq_none_iff, mem_cons]
    constructor
    · rintro ((he | ⟨he, hnone⟩) | ⟨d, hd, he, hnone, _⟩)
      · exact Or.inl he
      · exact Or.inr ⟨c, Or.inl rfl, he, hnone⟩
      · exact Or.inr ⟨d, Or.inr hd, he, hnone⟩
    · rintro (he | ⟨d, hd, he, hnone⟩)
      · exact Or.inl (Or.inl he)
      · by_cases hdc : d = c
        · subst hdc
          exact Or.inl (Or.inr ⟨he, hnone⟩)
        · refine Or.inr ⟨d, hd.resolve_left hdc, he, hnone, ?_⟩
          simpa using Ne.symm hdc

namespace Store

def Tagged (s : Store) (repoID digest : String) : Prop :=
  ∃ t ∈ s.tags.rows, t.repoID = repoID ∧ t.manifestDigest = digest
  deriving Decidable

def newManifest (s : Store) (docs : Documents) (now : Int)
    (tenantID repoID digest mediaType : String) (rawJSON : Bytes) : Manifest where
  id := s.nextID
  repoID := repoID
  tenantID := tenantID
  digest := digest
  mediaType := mediaType
  rawJSON := rawJSON
  imageSizeBytes := docs.imageSize rawJSON
  createdAt := now
  lastPulledAt := none
  retentionPendingDeleteAt := none

def rewriteDocument (row old : Manifest) : Manifest :=
  { old with
    mediaType := row.mediaType, rawJSON := row.rawJSON, imageSizeBytes := row.imageSizeBytes }

theorem rewriteDocument_key (row old : Manifest) :
    ((rewriteDocument row old).repoID, (rewriteDocument row old).digest) =
      (old.repoID, old.digest) := rfl

def upsertManifest (s : Store) (row : Manifest) (h : s.repositories.get row.repoID ≠ none) :
    Store :=
  { s with
    manifests := s.manifests.upsert row (rewriteDocument row) (rewriteDocument_key row)
    nextID := s.nextID + 1
    manifests_repo := by
      intro m hm
      rcases Table.mem_upsert hm with hm | rfl | ⟨u, hu, _, rfl⟩
      · exact s.manifests_repo m hm
      · exact h
      · exact s.manifests_repo u hu }

def insertChildren (s : Store) (repoID tenantID digest : String) (children : List String)
    (h : s.repositories.get repoID ≠ none) : Store :=
  { s with
    manifestChildren := s.manifestChildren.record repoID tenantID digest children
    children_repo := by
      intro c hc
      rcases ManifestChildren.mem_record.mp hc with hc | ⟨d, _, rfl, _⟩
      · exact s.children_repo c hc
      · exact h }

def setImageSize (tenantID repoID digest : String) (size : Int) (m : Manifest) : Manifest :=
  if m.tenantID = tenantID ∧ m.repoID = repoID ∧ m.digest = digest then
    { m with imageSizeBytes := size }
  else m

theorem setImageSize_eq (tenantID repoID digest : String) (size : Int) (m : Manifest) :
    ∃ size', setImageSize tenantID repoID digest size m = { m with imageSizeBytes := size' } := by
  unfold setImageSize
  split
  · exact ⟨size, rfl⟩
  · exact ⟨m.imageSizeBytes, rfl⟩

theorem setImageSize_key (tenantID repoID digest : String) (size : Int) (m : Manifest) :
    ((setImageSize tenantID repoID digest size m).repoID,
      (setImageSize tenantID repoID digest size m).digest) = (m.repoID, m.digest) := by
  obtain ⟨_, h⟩ := setImageSize_eq tenantID repoID digest size m
  rw [h]

def recalcImageSize (s : Store) (tenantID repoID digest : String) (children : List String) :
    Store :=
  let sizes := (s.manifests.rows.filter fun m => m.tenantID = tenantID ∧ m.digest ∈ children).map
    (·.imageSizeBytes)
  { s with
    manifests :=
      s.manifests.mapRows (setImageSize tenantID repoID digest (sizes.foldl (· + ·) 0))
        (setImageSize_key _ _ _ _)
    manifests_repo := by
      intro m hm
      obtain ⟨u, hu, rfl⟩ := mem_map.mp hm
      obtain ⟨size, hsize⟩ := setImageSize_eq tenantID repoID digest (sizes.foldl (· + ·) 0) u
      rw [hsize]
      exact s.manifests_repo u hu }

def writeManifest (s : Store) (docs : Documents) (now : Int)
    (tenantID repoID digest mediaType : String) (rawJSON : Bytes)
    (h : s.repositories.get repoID ≠ none) : Store :=
  let children := parseChildManifestDigests docs rawJSON mediaType
  let upserted :=
    s.upsertManifest (s.newManifest docs now tenantID repoID digest mediaType rawJSON) h
  if children = [] then upserted
  else
    (upserted.insertChildren repoID tenantID digest children h).recalcImageSize
      tenantID repoID digest children

def putManifest (s : Store) (docs : Documents) (now : Int)
    (tenantID repoID digest mediaType : String) (rawJSON : Bytes) : Except RepoError Store :=
  if h : s.repositories.get repoID = none then .error .internal
  else
    let written := s.writeManifest docs now tenantID repoID digest mediaType rawJSON h
    -- the row is read back under the tenant before the commit
    match written.manifests.get (repoID, digest) with
    | some m => if m.tenantID = tenantID then .ok written else .error .notFound
    | none => .error .notFound

def putTag (s : Store) (tenantID repoID name manifestDigest : String) : Except RepoError Store :=
  if h : s.repositories.get repoID = none then .error .internal
  else
    .ok
      { s with
        tags :=
          s.tags.upsert
            { repoID := repoID, tenantID := tenantID, name := name,
              manifestDigest := manifestDigest, immutable := false }
            (fun t => { t with manifestDigest := manifestDigest })
            fun _ => rfl
        tags_repo := by
          intro t ht
          rcases Table.mem_upsert ht with ht | rfl | ⟨u, hu, _, rfl⟩
          · exact s.tags_repo t ht
          · exact h
          · exact s.tags_repo u hu }

def deleteTag (s : Store) (tenantID repoID name : String) : Except RepoError Store :=
  let hit : Tag → Bool := fun t => t.repoID = repoID ∧ t.name = name ∧ t.tenantID = tenantID
  if s.tags.rows.any hit then
    .ok
      { s with
        tags := s.tags.remove hit
        tags_repo := fun t ht => s.tags_repo t (Table.mem_remove.mp ht).1 }
  else .error .notFound

def deleteManifestHit (tenantID repoID digest : String) (m : Manifest) : Bool :=
  m.repoID = repoID ∧ m.digest = digest ∧ m.tenantID = tenantID

def deleteManifest (s : Store) (tenantID repoID digest : String) : Except RepoError Store :=
  if s.manifests.rows.any (deleteManifestHit tenantID repoID digest) then
    .ok
      { s with
        manifests := s.manifests.remove (deleteManifestHit tenantID repoID digest)
        manifests_repo := fun m hm => s.manifests_repo m (Table.mem_remove.mp hm).1 }
  else .error .notFound

def getTag (s : Store) (tenantID repoID name : String) : Option Tag :=
  (s.tags.get (repoID, name)).filter fun t => t.tenantID = tenantID

def manifestRow (s : Store) (tenantID repoID digest : String) : Option Manifest :=
  (s.manifests.get (repoID, digest)).filter fun m => m.tenantID = tenantID

def resolveTag (s : Store) (tenantID repoID name : String) : Option Manifest :=
  match s.getTag tenantID repoID name with
  | some t => s.manifestRow tenantID repoID t.manifestDigest
  | none => none

def listUntaggedManifests (s : Store) (tenantID repoID : String) : List Manifest :=
  s.manifests.rows.filter fun m =>
    m.repoID = repoID ∧ m.tenantID = tenantID ∧ ¬ s.Tagged m.repoID m.digest

def listRepositories (s : Store) (tenantID : String) : List RepositoryRow :=
  s.repositories.rows.filter fun r => r.tenantID = tenantID

variable {m : Manifest} {name : String} {t : Tag}

theorem manifests_get_key {s : Store} {repoID digest : String}
    (h : s.manifests.get (repoID, digest) = some m) : m.repoID = repoID ∧ m.digest = digest := by
  have hkey := Table.key_of_get h
  simpa using hkey

theorem tags_get_key {s : Store} {repoID : String}
    (h : s.tags.get (repoID, name) = some t) : t.repoID = repoID ∧ t.name = name := by
  have hkey := Table.key_of_get h
  simpa using hkey

theorem manifestRow_eq_some {s : Store} {tenantID repoID digest : String} :
    s.manifestRow tenantID repoID digest = some m ↔
      s.manifests.get (repoID, digest) = some m ∧ m.tenantID = tenantID := by
  rw [manifestRow, Option.filter_eq_some_iff, decide_eq_true_eq]

theorem getTag_eq_some {s : Store} {tenantID repoID : String} :
    s.getTag tenantID repoID name = some t ↔
      s.tags.get (repoID, name) = some t ∧ t.tenantID = tenantID := by
  rw [getTag, Option.filter_eq_some_iff, decide_eq_true_eq]

structure PutManifestEffect (docs : Documents) (s s' : Store) (now : Int)
    (tenantID repoID digest mediaType : String) (rawJSON : Bytes) : Prop where
  organizations : s'.organizations = s.organizations
  repositories : s'.repositories = s.repositories
  tags : s'.tags = s.tags
  others : ∀ k, k ≠ (repoID, digest) → s'.manifests.get k = s.manifests.get k
  row : ∃ m, s'.manifests.get (repoID, digest) = some m ∧ m.tenantID = tenantID ∧
    m.mediaType = mediaType ∧ m.rawJSON = rawJSON ∧
    (∀ old, s.manifests.get (repoID, digest) = some old →
      m.id = old.id ∧ m.tenantID = old.tenantID ∧ m.createdAt = old.createdAt ∧
        m.retentionPendingDeleteAt = old.retentionPendingDeleteAt) ∧
    (s.manifests.get (repoID, digest) = none →
      m.id = s.nextID ∧ m.createdAt = now ∧ m.retentionPendingDeleteAt = none)
  children : ∀ e, e ∈ s'.manifestChildren.rows ↔ e ∈ s.manifestChildren.rows ∨
    ∃ c ∈ parseChildManifestDigests docs rawJSON mediaType,
      e = ⟨repoID, tenantID, digest, c⟩ ∧ s.manifestChildren.get (tenantID, digest, c) = none

variable {k : String × String}

theorem recalcImageSize_get {s : Store} {tenantID repoID digest : String}
    {children : List String} (h : s.manifests.get k = some m) :
    ∃ size, (s.recalcImageSize tenantID repoID digest children).manifests.get k =
      some { m with imageSizeBytes := size } := by
  unfold recalcImageSize
  rw [Table.get_mapRows, h, Option.map_some]
  obtain ⟨size, hsize⟩ := setImageSize_eq tenantID repoID digest _ m
  exact ⟨size, congrArg some hsize⟩

theorem recalcImageSize_get_ne {s : Store} {tenantID repoID digest : String}
    {children : List String} (hk : k ≠ (repoID, digest)) :
    (s.recalcImageSize tenantID repoID digest children).manifests.get k = s.manifests.get k := by
  unfold recalcImageSize
  rw [Table.get_mapRows]
  cases h : s.manifests.get k with
  | none => rfl
  | some m =>
    have hkey := Table.key_of_get h
    have hne : ¬ (m.tenantID = tenantID ∧ m.repoID = repoID ∧ m.digest = digest) := by
      rintro ⟨_, hr, hd⟩
      exact hk (by rw [← hkey, hr, hd])
    rw [Option.map_some, setImageSize, if_neg hne]

theorem upsertManifest_get (s : Store) (row : Manifest)
    (hr : s.repositories.get row.repoID ≠ none) :
    (s.upsertManifest row hr).manifests.get (row.repoID, row.digest) =
      some (((s.manifests.get (row.repoID, row.digest)).map (rewriteDocument row)).getD row) := by
  unfold upsertManifest
  rw [Table.get_upsert, if_pos rfl]

theorem upsertManifest_get_ne (s : Store) (row : Manifest)
    (hr : s.repositories.get row.repoID ≠ none) (hk : k ≠ (row.repoID, row.digest)) :
    (s.upsertManifest row hr).manifests.get k = s.manifests.get k := by
  unfold upsertManifest
  rw [Table.get_upsert, if_neg (Ne.symm hk)]

section
variable (s : Store) (docs : Documents) (now : Int) (tenantID repoID digest mediaType : String)
  (rawJSON : Bytes)

theorem writeManifest_get (h : s.repositories.get repoID ≠ none) :
    ∃ size, (s.writeManifest docs now tenantID repoID digest mediaType rawJSON h).manifests.get
        (repoID, digest) =
      some
        { ((s.manifests.get (repoID, digest)).map
              (rewriteDocument
                (s.newManifest docs now tenantID repoID digest mediaType rawJSON))).getD
            (s.newManifest docs now tenantID repoID digest mediaType rawJSON) with
          imageSizeBytes := size } := by
  have hupsert := s.upsertManifest_get
    (s.newManifest docs now tenantID repoID digest mediaType rawJSON) h
  by_cases hc : parseChildManifestDigests docs rawJSON mediaType = []
  · rw [writeManifest, if_pos hc]
    exact ⟨_, hupsert⟩
  · rw [writeManifest, if_neg hc]
    exact recalcImageSize_get hupsert

theorem writeManifest_get_ne (h : s.repositories.get repoID ≠ none) {k : String × String}
    (hk : k ≠ (repoID, digest)) :
    (s.writeManifest docs now tenantID repoID digest mediaType rawJSON h).manifests.get k =
      s.manifests.get k := by
  have hupsert := s.upsertManifest_get_ne
    (s.newManifest docs now tenantID repoID digest mediaType rawJSON) h hk
  by_cases hc : parseChildManifestDigests docs rawJSON mediaType = []
  · rw [writeManifest, if_pos hc]
    exact hupsert
  · rw [writeManifest, if_neg hc, recalcImageSize_get_ne hk]
    exact hupsert

theorem mem_writeManifest_children (h : s.repositories.get repoID ≠ none) (e : ManifestChild) :
    e ∈ (s.writeManifest docs now tenantID repoID digest mediaType
        rawJSON h).manifestChildren.rows ↔
      e ∈ s.manifestChildren.rows ∨ ∃ c ∈ parseChildManifestDigests docs rawJSON mediaType,
        e = ⟨repoID, tenantID, digest, c⟩ ∧
          s.manifestChildren.get (tenantID, digest, c) = none := by
  by_cases hc : parseChildManifestDigests docs rawJSON mediaType = []
  · rw [writeManifest, if_pos hc, hc]
    simp [upsertManifest]
  · rw [writeManifest, if_neg hc]
    exact ManifestChildren.mem_record

theorem writeManifest_frame (h : s.repositories.get repoID ≠ none) :
    (s.writeManifest docs now tenantID repoID digest mediaType rawJSON h).organizations =
        s.organizations ∧
      (s.writeManifest docs now tenantID repoID digest mediaType rawJSON h).repositories =
        s.repositories ∧
      (s.writeManifest docs now tenantID repoID digest mediaType rawJSON h).tags = s.tags := by
  by_cases hc : parseChildManifestDigests docs rawJSON mediaType = []
  · rw [writeManifest, if_pos hc]
    exact ⟨rfl, rfl, rfl⟩
  · rw [writeManifest, if_neg hc]
    exact ⟨rfl, rfl, rfl⟩

end

variable {s' : Store}

theorem putManifest_ok {docs : Documents} {s : Store} {now : Int}
    {tenantID repoID digest mediaType : String} {rawJSON : Bytes}
    (hok : s.putManifest docs now tenantID repoID digest mediaType rawJSON = .ok s') :
    PutManifestEffect docs s s' now tenantID repoID digest mediaType rawJSON := by
  unfold putManifest at hok
  split_ifs at hok with hrepo
  obtain ⟨size, hget⟩ := s.writeManifest_get docs now tenantID repoID digest mediaType rawJSON hrepo
  obtain ⟨horgs, hrepos, htags⟩ :=
    s.writeManifest_frame docs now tenantID repoID digest mediaType rawJSON hrepo
  simp only [hget] at hok
  split_ifs at hok with htenant
  cases hok
  refine
    { organizations := horgs, repositories := hrepos, tags := htags
      others := fun k hk => s.writeManifest_get_ne _ _ _ _ _ _ _ hrepo hk
      row := ⟨_, hget, htenant, ?_⟩
      children := s.mem_writeManifest_children _ _ _ _ _ _ _ hrepo }
  cases hold : s.manifests.get (repoID, digest) with
  | none => simp [newManifest]
  | some old => simp [newManifest, rewriteDocument]

theorem putManifest_isOk_iff {docs : Documents} {s : Store} {now : Int}
    {tenantID repoID digest mediaType : String} {rawJSON : Bytes} :
    (s.putManifest docs now tenantID repoID digest mediaType rawJSON).isOk = true ↔
      s.repositories.get repoID ≠ none ∧
        ∀ m, s.manifests.get (repoID, digest) = some m → m.tenantID = tenantID := by
  unfold putManifest
  split_ifs with hrepo
  · simp [hrepo, Except.isOk, Except.toBool]
  · obtain ⟨size, hget⟩ :=
      s.writeManifest_get docs now tenantID repoID digest mediaType rawJSON hrepo
    simp only [hget]
    cases hold : s.manifests.get (repoID, digest) with
    | none => simp [hrepo, newManifest, Except.isOk, Except.toBool]
    | some old =>
      by_cases htenant : old.tenantID = tenantID <;>
        simp [hrepo, htenant, rewriteDocument, Except.isOk, Except.toBool]

structure PutTagEffect (s s' : Store) (tenantID repoID name manifestDigest : String) : Prop where
  organizations : s'.organizations = s.organizations
  repositories : s'.repositories = s.repositories
  manifests : s'.manifests = s.manifests
  manifestChildren : s'.manifestChildren = s.manifestChildren
  others : ∀ k, k ≠ (repoID, name) → s'.tags.get k = s.tags.get k
  row : ∃ t, s'.tags.get (repoID, name) = some t ∧ t.manifestDigest = manifestDigest ∧
    (∀ old, s.tags.get (repoID, name) = some old →
      t.tenantID = old.tenantID ∧ t.immutable = old.immutable) ∧
    (s.tags.get (repoID, name) = none → t.tenantID = tenantID ∧ t.immutable = false)

theorem putTag_ok {s : Store} {tenantID repoID manifestDigest : String}
    (hok : s.putTag tenantID repoID name manifestDigest = .ok s') :
    PutTagEffect s s' tenantID repoID name manifestDigest := by
  unfold putTag at hok
  split_ifs at hok with hrepo
  cases hok
  refine
    { organizations := rfl, repositories := rfl, manifests := rfl, manifestChildren := rfl
      others := fun k hk => Table.get_upsert.trans (if_neg (Ne.symm hk))
      row := ⟨_, Table.get_upsert.trans (if_pos rfl), ?_⟩ }
  cases s.tags.get (repoID, name) with
  | none | some => simp

theorem PutTagEffect.mem {s : Store} {tenantID repoID manifestDigest : String}
    (h : PutTagEffect s s' tenantID repoID name manifestDigest) (ht : t ∈ s'.tags.rows) :
    t ∈ s.tags.rows ∨ (t.repoID = repoID ∧ t.name = name ∧ t.manifestDigest = manifestDigest) := by
  have hget := s'.tags.get_key ht
  by_cases hk : (t.repoID, t.name) = (repoID, name)
  · obtain ⟨u, hu, hdigest, _⟩ := h.row
    rw [hk, hu, Option.some.injEq] at hget
    rw [Prod.mk.injEq] at hk
    exact Or.inr ⟨hk.1, hk.2, hget ▸ hdigest⟩
  · rw [h.others _ hk] at hget
    exact Or.inl (Table.mem_of_get hget)

theorem deleteTag_ok {s : Store} {tenantID repoID : String}
    (hok : s.deleteTag tenantID repoID name = .ok s') :
    s'.organizations = s.organizations ∧ s'.repositories = s.repositories ∧
      s'.manifests = s.manifests ∧ s'.manifestChildren = s.manifestChildren ∧
      ∀ t ∈ s'.tags.rows, t ∈ s.tags.rows := by
  unfold deleteTag at hok
  simp only at hok
  split_ifs at hok
  cases hok
  exact ⟨rfl, rfl, rfl, rfl, fun t ht => (Table.mem_remove.mp ht).1⟩

theorem deleteManifest_ok {s : Store} {tenantID repoID digest : String}
    (hok : s.deleteManifest tenantID repoID digest = .ok s') :
    s'.organizations = s.organizations ∧ s'.repositories = s.repositories ∧
      s'.tags = s.tags ∧ s'.manifestChildren = s.manifestChildren ∧
      s'.manifests = s.manifests.remove (deleteManifestHit tenantID repoID digest) := by
  unfold deleteManifest at hok
  split_ifs at hok
  cases hok
  exact ⟨rfl, rfl, rfl, rfl, rfl⟩

inductive Op where
  | putManifest (now : Int) (tenantID repoID digest mediaType : String) (rawJSON : Bytes)
  | putTag (tenantID repoID name manifestDigest : String)
  | deleteTag (tenantID repoID name : String)
  | deleteManifest (tenantID repoID digest : String)

def exec (docs : Documents) (s : Store) : Op → Except RepoError Store
  | .putManifest now tenantID repoID digest mediaType rawJSON =>
    s.putManifest docs now tenantID repoID digest mediaType rawJSON
  | .putTag tenantID repoID name manifestDigest => s.putTag tenantID repoID name manifestDigest
  | .deleteTag tenantID repoID name => s.deleteTag tenantID repoID name
  | .deleteManifest tenantID repoID digest => s.deleteManifest tenantID repoID digest

def orSame (s : Store) : Except RepoError Store → Store
  | .ok s' => s'
  | .error _ => s

theorem orSame_eq (s : Store) (r : Except RepoError Store) :
    s.orSame r = s ∨ r = .ok (s.orSame r) := by
  cases r with
  | error e => exact Or.inl rfl
  | ok s' => exact Or.inr rfl

theorem orSame_of {P : Store → Prop} {s : Store} {r : Except RepoError Store} (hsame : P s)
    (hwritten : ∀ s', r = .ok s' → P s') : P (s.orSame r) := by
  rcases s.orSame_eq r with heq | hok
  · rwa [heq]
  · exact hwritten _ hok

def apply (docs : Documents) (s : Store) (op : Op) : Store :=
  match s.exec docs op with
  | .ok s' => s'
  | .error _ => s

end Store

end OciJanus.Metadata
