import OciJanus.Metadata.Promotion
import OciJanus.Verified.ExpiringStore

/-!
# The writers of tags and of their flags

A promotion's last two writes and its commit are one step, at `READ COMMITTED`. Every other
statement and every call to the cache is a step.
-/

namespace OciJanus.Core.TagWrites

open Metadata Metadata.Promotion Verified Verified.KeyedTable Verified.Sha256

def getRepository (s : Store) (tenantID repoID : String) : Option RepositoryRow :=
  (s.repositories.get repoID).filter fun r => r.tenantID = tenantID

def setImmutable (tenantID repoID name : String) (immutable : Bool) (t : Tag) : Tag :=
  if t.repoID = repoID ∧ t.tenantID = tenantID ∧ t.name = name then
    { t with immutable := immutable }
  else t

theorem setImmutable_eq (tenantID repoID name : String) (immutable : Bool) (t : Tag) :
    ∃ b, setImmutable tenantID repoID name immutable t = { t with immutable := b } := by
  unfold setImmutable
  split_ifs
  · exact ⟨immutable, rfl⟩
  · exact ⟨t.immutable, rfl⟩

theorem setImmutable_key (tenantID repoID name : String) (immutable : Bool) (t : Tag) :
    ((setImmutable tenantID repoID name immutable t).repoID,
      (setImmutable tenantID repoID name immutable t).name) = (t.repoID, t.name) := by
  obtain ⟨b, hb⟩ := setImmutable_eq tenantID repoID name immutable t
  rw [hb]

def setImmutableTags (tenantID repoID : String) (immutableTags : Bool) (r : RepositoryRow) :
    RepositoryRow :=
  if r.id = repoID ∧ r.tenantID = tenantID then { r with immutableTags := immutableTags } else r

theorem setImmutableTags_eq (tenantID repoID : String) (immutableTags : Bool) (r : RepositoryRow) :
    ∃ b, setImmutableTags tenantID repoID immutableTags r = { r with immutableTags := b } := by
  unfold setImmutableTags
  split_ifs
  · exact ⟨immutableTags, rfl⟩
  · exact ⟨r.immutableTags, rfl⟩

theorem setImmutableTags_id (tenantID repoID : String) (immutableTags : Bool) (r : RepositoryRow) :
    (setImmutableTags tenantID repoID immutableTags r).id = r.id := by
  obtain ⟨b, hb⟩ := setImmutableTags_eq tenantID repoID immutableTags r
  rw [hb]

def updateTagImmutable (s : Store) (tenantID repoID name : String) (immutable : Bool) :
    Except RepoError Store :=
  if (s.getTag tenantID repoID name).isSome then
    .ok
      { s with
        tags := s.tags.mapRows (setImmutable tenantID repoID name immutable)
          (setImmutable_key tenantID repoID name immutable)
        tags_repo := by
          intro t ht
          obtain ⟨u, hu, rfl⟩ := List.mem_map.mp ht
          rw [(Prod.mk.inj (setImmutable_key tenantID repoID name immutable u)).1]
          exact s.tags_repo u hu }
  else .error .notFound

def updateRepositoryImmutability (s : Store) (tenantID repoID : String) (immutableTags : Bool) :
    Except RepoError Store :=
  if (getRepository s tenantID repoID).isSome then
    have hget : ∀ id, s.repositories.get id ≠ none →
        (s.repositories.mapRows (setImmutableTags tenantID repoID immutableTags)
          (setImmutableTags_id tenantID repoID immutableTags)).get id ≠ none := by
      intro id hid
      rw [Table.get_mapRows]
      simpa using hid
    .ok
      { s with
        repositories := s.repositories.mapRows (setImmutableTags tenantID repoID immutableTags)
          (setImmutableTags_id tenantID repoID immutableTags)
        manifests_repo := fun m hm => hget _ (s.manifests_repo m hm)
        tags_repo := fun t ht => hget _ (s.tags_repo t ht)
        children_repo := fun c hc => hget _ (s.children_repo c hc) }
  else .error .notFound

theorem updateTagImmutable_ok {s s' : Store} {tenantID repoID name : String} {immutable : Bool}
    (h : updateTagImmutable s tenantID repoID name immutable = .ok s') :
    s'.repositories = s.repositories ∧
      ∀ k, s'.tags.get k = (s.tags.get k).map (setImmutable tenantID repoID name immutable) := by
  unfold updateTagImmutable at h
  split_ifs at h
  cases h
  exact ⟨rfl, fun k => by simp only [Table.get_mapRows]⟩

theorem updateRepositoryImmutability_ok {s s' : Store} {tenantID repoID : String}
    {immutableTags : Bool}
    (h : updateRepositoryImmutability s tenantID repoID immutableTags = .ok s') :
    s'.tags = s.tags ∧ ∀ id, s'.repositories.get id =
        (s.repositories.get id).map (setImmutableTags tenantID repoID immutableTags) := by
  unfold updateRepositoryImmutability at h
  split_ifs at h
  cases h
  exact ⟨rfl, fun id => by simp only [Table.get_mapRows]⟩

structure Push where
  (tenantID repoID reference mediaType : String)
  rawJSON : Bytes
  digest : String

inductive Pc where
  | idle
  | getTag (req : Push)
  | queryTag (req : Push)
  | cacheTag (req : Push) (t : Tag)
  | getRepository (req : Push)
  | queryRepository (req : Push)
  | cacheRepository (req : Push) (r : RepositoryRow)
  | putManifest (req : Push)
  | putTag (req : Push)
  | sourceTag (input : PromoteTagInput) (newID : String)
  | destinationRepo (input : PromoteTagInput) (newID digest : String)
  | destinationOrg (input : PromoteTagInput) (newID digest : String)
  | createRepo (input : PromoteTagInput) (newID digest : String) (org : Organization)
  | destinationTag (input : PromoteTagInput) (dst : RepositoryRow) (digest : String)
      (created : Bool)
  | upsertTag (input : PromoteTagInput) (dst : RepositoryRow) (digest : String) (created : Bool)
  | updateTag (tenantID repoID name : String) (immutable : Bool)
  | tagUpdated (repoID name : String) (immutable : Bool)
  | updateRepository (tenantID repoID : String) (immutableTags : Bool)
  | bustRepositoryCache (tenantID repoID : String) (immutableTags : Bool)
  | repositoryUpdated (repoID : String) (immutableTags : Bool)

inductive Request where
  | push (tenantID repoID reference mediaType : String) (rawJSON : Bytes)
  | promoteTag (input : PromoteTagInput) (newID : String)
  | updateTagImmutable (tenantID repoID name : String) (immutable : Bool)
  | updateRepositoryImmutability (tenantID repoID : String) (immutableTags : Bool)

structure Config where
  docs : Documents
  digestOf : Bytes → String

/-- The last two fields are what the proofs look back at. -/
structure System (n : Nat) where
  store : Store
  now : Int
  tagCache : ExpiringStore.Store (String × String × String) Tag
  repoCache : ExpiringStore.Store (String × String) RepositoryRow
  pcs : Fin n → Pc
  tagSettled : String × String → Bool
  repoSettled : String → Bool

def cacheTTL : Int := 30 * 1000000000

def Push.tagKey (req : Push) : String × String × String := (req.tenantID, req.repoID, req.reference)

def Push.repoKey (req : Push) : String × String := (req.tenantID, req.repoID)

def afterTag (req : Push) (t : Tag) : Pc :=
  if t.manifestDigest = req.digest then .putManifest req
  else if t.immutable then .idle
  else .getRepository req

def afterRepository (req : Push) (r : RepositoryRow) : Pc :=
  if r.immutableTags then .idle else .putManifest req

def quiet (newID : String) (now : Int) : Env := ⟨fun _ => false, false, newID, now⟩

namespace System

variable {n : Nat} (cfg : Config) (s : System n)

def next : Pc → Pc
  | .idle => .idle
  | .getTag req =>
    match s.tagCache.get s.now req.tagKey with
    | some t => afterTag req t
    | none => .queryTag req
  | .queryTag req =>
    match s.store.getTag req.tenantID req.repoID req.reference with
    | some t => .cacheTag req t
    | none => .putManifest req
  | .cacheTag req t => afterTag req t
  | .getRepository req =>
    match s.repoCache.get s.now req.repoKey with
    | some r => afterRepository req r
    | none => .queryRepository req
  | .queryRepository req =>
    match TagWrites.getRepository s.store req.tenantID req.repoID with
    | some r => .cacheRepository req r
    | none => .putManifest req
  | .cacheRepository req r => afterRepository req r
  | .putManifest req =>
    match s.store.putManifest cfg.docs s.now req.tenantID req.repoID req.digest req.mediaType
        req.rawJSON with
    | .ok _ => .putTag req
    | .error _ => .idle
  | .putTag _ => .idle
  | .sourceTag input newID =>
    match Promotion.sourceTag s.store input with
    | some src => .destinationRepo input newID src.manifestDigest
    | none => .idle
  | .destinationRepo input newID digest =>
    match Promotion.destinationRepo s.store input with
    | some dst => .destinationTag input dst digest false
    | none => if input.createIfMissing then .destinationOrg input newID digest else .idle
  | .destinationOrg input newID digest =>
    match Promotion.destinationOrg s.store input with
    | some org => .createRepo input newID digest org
    | none => .idle
  | .createRepo input newID digest org =>
    match insertRepo s.store (newRepo (quiet newID s.now) input org) with
    | some _ => .destinationTag input (newRepo (quiet newID s.now) input org) digest true
    | none => .idle
  | .destinationTag input dst digest created =>
    if blocked s.store input dst digest then .idle else .upsertTag input dst digest created
  | .upsertTag .. => .idle
  | .updateTag tenantID repoID name immutable =>
    if (s.store.getTag tenantID repoID name).isSome then .tagUpdated repoID name immutable
    else .idle
  | .tagUpdated .. => .idle
  | .updateRepository tenantID repoID immutableTags =>
    if (TagWrites.getRepository s.store tenantID repoID).isSome then
      .bustRepositoryCache tenantID repoID immutableTags
    else .idle
  | .bustRepositoryCache _ repoID immutableTags => .repositoryUpdated repoID immutableTags
  | .repositoryUpdated .. => .idle

def commit (input : PromoteTagInput) (dst : RepositoryRow) (digest : String) (created : Bool) :
    Store :=
  if created then
    match insertRepo s.store dst with
    | some withRepo =>
      s.store.orSame (withRepo.putTag input.tenantID dst.id input.dstTag digest)
    | none => s.store
  else s.store.orSame (s.store.putTag input.tenantID dst.id input.dstTag digest)

def write : Pc → Store
  | .putManifest req =>
    s.store.orSame (s.store.putManifest cfg.docs s.now req.tenantID req.repoID req.digest
      req.mediaType req.rawJSON)
  | .putTag req =>
    s.store.orSame (s.store.putTag req.tenantID req.repoID req.reference req.digest)
  | .upsertTag input dst digest created => s.commit input dst digest created
  | .updateTag tenantID repoID name immutable =>
    s.store.orSame (updateTagImmutable s.store tenantID repoID name immutable)
  | .updateRepository tenantID repoID immutableTags =>
    s.store.orSame (updateRepositoryImmutability s.store tenantID repoID immutableTags)
  | _ => s.store

def cacheTags : Pc → ExpiringStore.Store (String × String × String) Tag
  | .cacheTag req t => s.tagCache.set s.now req.tagKey t cacheTTL
  | _ => s.tagCache

def cacheRepos : Pc → ExpiringStore.Store (String × String) RepositoryRow
  | .cacheRepository req r => s.repoCache.set s.now req.repoKey r cacheTTL
  | .bustRepositoryCache tenantID repoID _ => s.repoCache.del (tenantID, repoID)
  | _ => s.repoCache

def settleTags : Pc → String × String → Bool
  | .updateTag tenantID repoID name immutable =>
    if (s.store.getTag tenantID repoID name).isSome ∧ immutable = false then
      Function.update s.tagSettled (repoID, name) false
    else s.tagSettled
  | .tagUpdated repoID name immutable =>
    if immutable ∧ (s.store.tags.get (repoID, name)).any (·.immutable) then
      Function.update s.tagSettled (repoID, name) true
    else s.tagSettled
  | _ => s.tagSettled

def settleRepos : Pc → String → Bool
  | .updateRepository tenantID repoID immutableTags =>
    if (TagWrites.getRepository s.store tenantID repoID).isSome ∧ immutableTags = false then
      Function.update s.repoSettled repoID false
    else s.repoSettled
  | .repositoryUpdated repoID immutableTags =>
    if immutableTags ∧ (s.store.repositories.get repoID).any (·.immutableTags) then
      Function.update s.repoSettled repoID true
    else s.repoSettled
  | _ => s.repoSettled

def advance (i : Fin n) : System n where
  store := s.write cfg (s.pcs i)
  now := s.now
  tagCache := s.cacheTags (s.pcs i)
  repoCache := s.cacheRepos (s.pcs i)
  pcs := Function.update s.pcs i (s.next cfg (s.pcs i))
  tagSettled := s.settleTags (s.pcs i)
  repoSettled := s.settleRepos (s.pcs i)

end System

def Pc.isIdle : Pc → Bool
  | .idle => true
  | _ => false

def Request.arrives (s : Store) : Request → Bool
  | .push tenantID repoID _ _ _ => (getRepository s tenantID repoID).isSome
  | _ => true

def Request.start (cfg : Config) : Request → Pc
  | .push tenantID repoID reference mediaType rawJSON =>
    .getTag ⟨tenantID, repoID, reference, mediaType, rawJSON, cfg.digestOf rawJSON⟩
  | .promoteTag input newID => .sourceTag input newID
  | .updateTagImmutable tenantID repoID name immutable => .updateTag tenantID repoID name immutable
  | .updateRepositoryImmutability tenantID repoID immutableTags =>
    .updateRepository tenantID repoID immutableTags

inductive Action (n : Nat) where
  | tick (elapsed : Nat)
  | call (i : Fin n) (req : Request)
  | advance (i : Fin n)

namespace System

variable {n : Nat}

def idle (store : Store) (now : Int) : System n where
  store := store
  now := now
  tagCache := .empty
  repoCache := .empty
  pcs _ := .idle
  tagSettled k := (store.tags.get k).any (·.immutable)
  repoSettled id := (store.repositories.get id).any (·.immutableTags)

def step (cfg : Config) (s : System n) : Action n → System n
  | .tick elapsed => { s with now := s.now + elapsed }
  | .call i req =>
    if (s.pcs i).isIdle && req.arrives s.store then
      { s with pcs := Function.update s.pcs i (req.start cfg) }
    else s
  | .advance i => s.advance cfg i

end System

end OciJanus.Core.TagWrites
