import OciJanus.Metadata.Tables

/-!
# Promotion

No manifest row moves, and a pull looks the digest up in the destination.
-/

namespace OciJanus.Metadata.Promotion

open Metadata Verified.KeyedTable Verified.Run

structure PromoteTagInput where
  (tenantID srcOrg srcRepo srcTag dstOrg dstRepo dstTag : String)
  actorUserID : Option String
  note : String
  createIfMissing : Bool

structure PromotionRow where
  (tenantID srcOrg srcRepo srcTag srcDigest dstOrg dstRepo dstTag dstDigest : String)
  actorUserID : Option String
  note : String
  deriving DecidableEq

structure Database where
  store : Store
  promotions : List PromotionRow

inductive Statement where
  | beginTx
  | sourceTag
  | destinationRepo
  | destinationOrg
  | createRepo
  | destinationTag
  | upsertTag
  | insertPromotion
  | commit

structure Env where
  fails : Statement → Bool
  raced : Bool
  repoID : String
  now : Int

def promoteFullName (org repo : String) : String := org ++ "/" ++ repo

def fullName (s : Store) (r : RepositoryRow) : Option String :=
  (s.organizations.get r.orgID).map fun o => promoteFullName o.name r.name

def sourceTag (s : Store) (input : PromoteTagInput) : Option Tag :=
  s.tags.rows.find? fun t =>
    t.tenantID = input.tenantID ∧ t.name = input.srcTag ∧
      (s.repositories.get t.repoID).bind (fullName s) =
        some (promoteFullName input.srcOrg input.srcRepo)

def destinationRepo (s : Store) (input : PromoteTagInput) : Option RepositoryRow :=
  s.repositories.rows.find? fun r =>
    r.tenantID = input.tenantID ∧ fullName s r = some (promoteFullName input.dstOrg input.dstRepo)

def destinationOrg (s : Store) (input : PromoteTagInput) : Option Organization :=
  s.organizations.rows.find? fun o => o.tenantID = input.tenantID ∧ o.name = input.dstOrg

def newRepo (env : Env) (input : PromoteTagInput) (org : Organization) : RepositoryRow where
  id := env.repoID
  orgID := org.id
  tenantID := input.tenantID
  name := input.dstRepo
  immutableTags := false
  storageUsed := 0
  createdAt := env.now

def insertRepo (s : Store) (r : RepositoryRow) : Option Store :=
  if s.repositories.rows.any fun q => q.orgID = r.orgID ∧ q.name = r.name then none
  else
    match h : s.repositories.insert? r with
    | none => none
    | some repositories =>
      have hget : ∀ id, s.repositories.get id ≠ none → repositories.get id ≠ none := by
        intro id hid
        rw [Table.get_insert? h]
        split
        · simp
        · exact hid
      some
        { s with
          repositories := repositories
          manifests_repo := fun m hm => hget _ (s.manifests_repo m hm)
          tags_repo := fun t ht => hget _ (s.tags_repo t ht)
          children_repo := fun c hc => hget _ (s.children_repo c hc) }

def run? (env : Env) (st : Statement) : Except RepoError Unit :=
  if env.fails st then .error .internal else .ok ()

def resolveDestination (env : Env) (s : Store) (input : PromoteTagInput) :
    Except RepoError (Store × RepositoryRow) := do
  run? env .destinationRepo
  match destinationRepo s input with
  | some r => .ok (s, r)
  | none =>
    if !input.createIfMissing then .error .notFound
    else do
      run? env .destinationOrg
      match destinationOrg s input with
      | none => .error .notFound
      | some org => do
        run? env .createRepo
        if env.raced then .error .internal
        else
          match insertRepo s (newRepo env input org) with
          | none => .error .internal
          | some s' => .ok (s', newRepo env input org)

def promotionRow (input : PromoteTagInput) (digest : String) : PromotionRow where
  tenantID := input.tenantID
  srcOrg := input.srcOrg
  srcRepo := input.srcRepo
  srcTag := input.srcTag
  srcDigest := digest
  dstOrg := input.dstOrg
  dstRepo := input.dstRepo
  dstTag := input.dstTag
  dstDigest := digest
  actorUserID := input.actorUserID
  note := input.note

def blocked (s : Store) (input : PromoteTagInput) (dst : RepositoryRow) (digest : String) : Bool :=
  (s.getTag input.tenantID dst.id input.dstTag).any fun t =>
    t.manifestDigest ≠ digest ∧ (dst.immutableTags ∨ t.immutable)

def transaction (env : Env) (db : Database) (input : PromoteTagInput) :
    Except RepoError (Database × PromotionRow) := do
  run? env .beginTx
  run? env .sourceTag
  match sourceTag db.store input with
  | none => .error .notFound
  | some src => do
    let (s, dst) ← resolveDestination env db.store input
    run? env .destinationTag
    if blocked s input dst src.manifestDigest then .error .immutableTag
    else do
      run? env .upsertTag
      let s' ← s.putTag input.tenantID dst.id input.dstTag src.manifestDigest
      run? env .insertPromotion
      run? env .commit
      let row := promotionRow input src.manifestDigest
      .ok (⟨s', db.promotions ++ [row]⟩, row)

def promoteTag (env : Env) (db : Database) (input : PromoteTagInput) :
    Database × Except RepoError PromotionRow :=
  match transaction env db input with
  | .ok (db', row) => (db', .ok row)
  | .error e => (db, .error e)

theorem bind_ok {α β : Type} {x : Except RepoError α} {f : α → Except RepoError β} {b : β}
    (h : (x >>= f) = .ok b) : ∃ a, x = .ok a ∧ f a = .ok b := by
  cases x with
  | error e => cases h
  | ok a => exact ⟨a, rfl, h⟩

variable {s s' : Store}

theorem insertRepo_ok {r : RepositoryRow} (h : insertRepo s r = some s') :
    s.repositories.get r.id = none ∧ s'.repositories.rows = s.repositories.rows ++ [r] ∧
      s'.organizations = s.organizations ∧ s'.manifests = s.manifests ∧ s'.tags = s.tags := by
  unfold insertRepo at h
  split_ifs at h
  split at h
  · cases h
  · rename_i repositories hins
    cases h
    obtain ⟨hnone, hrows⟩ := Table.insert?_eq_some hins
    exact ⟨hnone, hrows, rfl, rfl, rfl⟩

inductive Resolved (env : Env) (s : Store) (input : PromoteTagInput) :
    Store → RepositoryRow → Prop
  | found {r : RepositoryRow} : destinationRepo s input = some r → Resolved env s input s r
  | created {org : Organization} {s' : Store} : destinationRepo s input = none →
      destinationOrg s input = some org → insertRepo s (newRepo env input org) = some s' →
      Resolved env s input s' (newRepo env input org)

theorem resolveDestination_ok {env : Env} {input : PromoteTagInput}
    {dst : RepositoryRow} (h : resolveDestination env s input = .ok (s', dst)) :
    Resolved env s input s' dst := by
  obtain ⟨_, _, h⟩ := bind_ok h
  cases hrepo : destinationRepo s input with
  | some r =>
    simp only [hrepo] at h
    cases h
    exact .found hrepo
  | none =>
    simp only [hrepo] at h
    by_cases hcreate : (!input.createIfMissing) = true
    · rw [if_pos hcreate] at h
      cases h
    rw [if_neg hcreate] at h
    obtain ⟨_, _, h⟩ := bind_ok h
    cases horg : destinationOrg s input with
    | none => simp [horg] at h
    | some org =>
      simp only [horg] at h
      obtain ⟨_, _, h⟩ := bind_ok h
      by_cases hraced : env.raced = true
      · rw [if_pos hraced] at h
        cases h
      rw [if_neg hraced] at h
      cases hins : insertRepo s (newRepo env input org) with
      | none => simp [hins] at h
      | some t =>
        simp only [hins] at h
        cases h
        exact .created hrepo horg hins

theorem Resolved.destination {env : Env} {input : PromoteTagInput}
    {dst : RepositoryRow} (h : Resolved env s input s' dst) :
    destinationRepo s' input = some dst := by
  cases h with
  | found hrepo => exact hrepo
  | @created org s' hrepo horg hins =>
    obtain ⟨_, hrows, horgs, _, _⟩ := insertRepo_ok hins
    have hname : ∀ r, fullName s' r = fullName s r := fun r => by rw [fullName, horgs, fullName]
    unfold destinationRepo at hrepo ⊢
    simp only [hname]
    rw [hrows, List.find?_append, hrepo]
    have hfound := List.find?_some horg
    simp only [decide_eq_true_eq] at hfound
    have hget : s.organizations.get org.id = some org :=
      s.organizations.get_key (List.mem_of_find?_eq_some horg)
    simp [newRepo, fullName, hget, hfound.2]

structure Promoted (env : Env) (db db' : Database) (input : PromoteTagInput)
    (row : PromotionRow) (src : Tag) (s : Store) (dst : RepositoryRow) : Prop where
  source : sourceTag db.store input = some src
  destination : Resolved env db.store input s dst
  gate : blocked s input dst src.manifestDigest = false
  tag : Store.PutTagEffect s db'.store input.tenantID dst.id input.dstTag src.manifestDigest
  history : db'.promotions = db.promotions ++ [row]
  row_eq : row = promotionRow input src.manifestDigest

theorem transaction_ok {env : Env} {db db' : Database} {input : PromoteTagInput}
    {row : PromotionRow} (h : transaction env db input = .ok (db', row)) :
    ∃ src s dst, Promoted env db db' input row src s dst := by
  obtain ⟨_, _, h⟩ := bind_ok h
  obtain ⟨_, _, h⟩ := bind_ok h
  cases hsrc : sourceTag db.store input with
  | none => simp [hsrc] at h
  | some src =>
    simp only [hsrc] at h
    obtain ⟨⟨s, dst⟩, hdst, h⟩ := bind_ok h
    obtain ⟨_, _, h⟩ := bind_ok h
    simp only at h
    split_ifs at h with hblocked
    obtain ⟨_, _, h⟩ := bind_ok h
    obtain ⟨s', hput, h⟩ := bind_ok h
    obtain ⟨_, _, h⟩ := bind_ok h
    obtain ⟨_, _, h⟩ := bind_ok h
    cases h
    exact ⟨src, s, dst, hsrc, resolveDestination_ok hdst, by simpa using hblocked,
      Store.putTag_ok hput, rfl, rfl⟩

def Delivered (s : Store) (input : PromoteTagInput) (m : Manifest) : Prop :=
  ∃ dst, destinationRepo s input = some dst ∧
    ∃ m', s.resolveTag input.tenantID dst.id input.dstTag = some m' ∧
      m'.digest = m.digest ∧ m'.rawJSON = m.rawJSON

def HeldByDestination (s : Store) (input : PromoteTagInput) (m : Manifest) : Prop :=
  ∃ dst, destinationRepo s input = some dst ∧
    (∃ m', s.manifestRow input.tenantID dst.id m.digest = some m' ∧ m'.rawJSON = m.rawJSON) ∧
    ∀ t, s.tags.get (dst.id, input.dstTag) = some t → t.tenantID = input.tenantID

theorem sourceTag_resolves {input : PromoteTagInput} {src : Tag} {m : Manifest}
    (hsrc : sourceTag s input = some src)
    (hm : s.resolveTag input.tenantID src.repoID input.srcTag = some m) :
    m.digest = src.manifestDigest := by
  have hfound := List.find?_some hsrc
  simp only [decide_eq_true_eq] at hfound
  obtain ⟨htenant, hname, _⟩ := hfound
  have hget : s.getTag input.tenantID src.repoID input.srcTag = some src := by
    rw [← hname]
    exact Store.getTag_eq_some.mpr ⟨s.tags.get_key (List.mem_of_find?_eq_some hsrc), htenant⟩
  rw [Store.resolveTag, hget] at hm
  exact (Store.manifests_get_key (Store.manifestRow_eq_some.mp hm).1).2

section
variable {env : Env} {db db' : Database} {input : PromoteTagInput} {row : PromotionRow} {src : Tag}
  {s : Store} {dst : RepositoryRow}

theorem Promoted.resolveTag (h : Promoted env db db' input row src s dst)
    (hown : ∀ t, s.tags.get (dst.id, input.dstTag) = some t → t.tenantID = input.tenantID) :
    db'.store.resolveTag input.tenantID dst.id input.dstTag =
      s.manifestRow input.tenantID dst.id src.manifestDigest := by
  obtain ⟨t, ht, hdigest, hkept, hnew⟩ := h.tag.row
  have htenant : t.tenantID = input.tenantID := by
    cases hold : s.tags.get (dst.id, input.dstTag) with
    | none => exact (hnew hold).1
    | some old => exact (hkept old hold).1.trans (hown old hold)
  have hget : db'.store.getTag input.tenantID dst.id input.dstTag = some t :=
    Store.getTag_eq_some.mpr ⟨ht, htenant⟩
  rw [Store.resolveTag, hget]
  show db'.store.manifestRow _ _ t.manifestDigest = _
  rw [hdigest, Store.manifestRow, h.tag.manifests, Store.manifestRow]

theorem Promoted.resolveTag_foreign (h : Promoted env db db' input row src s dst) {old : Tag}
    (hold : s.tags.get (dst.id, input.dstTag) = some old) (hne : old.tenantID ≠ input.tenantID) :
    db'.store.resolveTag input.tenantID dst.id input.dstTag = none := by
  obtain ⟨t, ht, _, hkept, _⟩ := h.tag.row
  have htenant : t.tenantID ≠ input.tenantID := by rwa [(hkept old hold).1]
  have hget : db'.store.getTag input.tenantID dst.id input.dstTag = none := by
    rw [Store.getTag, ht]
    simp [Option.filter, htenant]
  rw [Store.resolveTag, hget]

theorem Promoted.destinationRepo (h : Promoted env db db' input row src s dst) :
    destinationRepo db'.store input = some dst := by
  have hdst := h.destination.destination
  unfold Promotion.destinationRepo fullName at hdst ⊢
  rw [h.tag.repositories, h.tag.organizations]
  exact hdst

theorem Promoted.delivered_iff_row (h : Promoted env db db' input row src s dst) {m : Manifest}
    (hm : m.digest = src.manifestDigest) :
    Delivered db'.store input m ↔
      (∃ m', s.manifestRow input.tenantID dst.id m.digest = some m' ∧ m'.rawJSON = m.rawJSON) ∧
        ∀ t, s.tags.get (dst.id, input.dstTag) = some t → t.tenantID = input.tenantID := by
  unfold Delivered
  rw [h.destinationRepo]
  constructor
  · rintro ⟨dst', hdst', m', hresolve, hdigest, hraw⟩
    obtain rfl : dst = dst' := Option.some.inj hdst'
    have hown : ∀ t, s.tags.get (dst.id, input.dstTag) = some t → t.tenantID = input.tenantID := by
      intro t ht
      by_contra hne
      rw [h.resolveTag_foreign ht hne] at hresolve
      cases hresolve
    rw [h.resolveTag hown, ← hm] at hresolve
    exact ⟨⟨m', hresolve, hraw⟩, hown⟩
  · rintro ⟨⟨m', hrow, hraw⟩, hown⟩
    have hkey := Store.manifests_get_key (Store.manifestRow_eq_some.mp hrow).1
    refine ⟨dst, rfl, m', ?_, hkey.2, hraw⟩
    rw [h.resolveTag hown, ← hm, hrow]

theorem manifestRow_created {s s' : Store} {r : RepositoryRow} (hins : insertRepo s r = some s')
    (tenantID digest : String) : s'.manifestRow tenantID r.id digest = none := by
  obtain ⟨hfresh, _, _, hmanifests, _⟩ := insertRepo_ok hins
  cases hrow : s'.manifestRow tenantID r.id digest with
  | none => rfl
  | some m =>
    have hget := (Store.manifestRow_eq_some.mp hrow).1
    rw [hmanifests] at hget
    have hrepo := s.manifests_repo m (Table.mem_of_get hget)
    rw [(Store.manifests_get_key hget).1] at hrepo
    exact absurd hfresh hrepo

theorem Promoted.delivered_iff (h : Promoted env db db' input row src s dst) {m : Manifest}
    (hm : m.digest = src.manifestDigest) :
    Delivered db'.store input m ↔ HeldByDestination db.store input m := by
  rw [h.delivered_iff_row hm]
  unfold HeldByDestination
  cases h.destination with
  | found hrepo =>
    constructor
    · rintro ⟨hheld, hown⟩
      exact ⟨dst, hrepo, hheld, hown⟩
    · rintro ⟨dst', hrepo', hheld, hown⟩
      rw [hrepo, Option.some.injEq] at hrepo'
      subst hrepo'
      exact ⟨hheld, hown⟩
  | created hrepo horg hins =>
    constructor
    · rintro ⟨⟨m', hrow, _⟩, _⟩
      rw [manifestRow_created hins] at hrow
      cases hrow
    · rintro ⟨dst', hrepo', _⟩
      rw [hrepo] at hrepo'
      cases hrepo'

end

/-- **A promotion is all or nothing**, and when its tag can be pulled. -/
theorem promotion_delivers_iff (env : Env) (db : Database) (input : PromoteTagInput) :
    (∀ e, (promoteTag env db input).2 = .error e → (promoteTag env db input).1 = db) ∧
    ∀ row, (promoteTag env db input).2 = .ok row → ∀ src, sourceTag db.store input = some src →
        ∀ m, db.store.resolveTag input.tenantID src.repoID input.srcTag = some m →
          (Delivered (promoteTag env db input).1.store input m ↔
            HeldByDestination db.store input m) := by
  unfold promoteTag
  cases htx : transaction env db input with
  | error e => exact ⟨fun _ _ => rfl, fun _ hok => by cases hok⟩
  | ok result =>
    obtain ⟨db', row⟩ := result
    refine ⟨fun _ herr => (by cases herr), fun _ _ src hsrc m hm => ?_⟩
    obtain ⟨src', s, dst, hpromoted⟩ := transaction_ok htx
    have hdigest := sourceTag_resolves hsrc hm
    rw [hpromoted.source, Option.some.injEq] at hsrc
    subst hsrc
    exact hpromoted.delivered_iff hdigest

def stagedImage : Database where
  store :=
    run (Store.apply indexDocuments) (Store.fresh (.single ⟨"o", "t", "acme"⟩)
        ⟨["staging", "production"].map fun name =>
            { id := name, orgID := "o", tenantID := "t", name := name, immutableTags := false,
              storageUsed := 0, createdAt := 0 }, by decide⟩)
      [.putManifest 0 "t" "staging" "sha256:m" mediaTypeOCIManifest [1],
        .putTag "t" "staging" "v1" "sha256:m"]
  promotions := []

def toProduction : PromoteTagInput where
  tenantID := "t"
  srcOrg := "acme"
  srcRepo := "staging"
  srcTag := "v1"
  dstOrg := "acme"
  dstRepo := "production"
  dstTag := "v1"
  actorUserID := none
  note := ""
  createIfMissing := false

def Env.quiet : Env := ⟨fun _ => false, false, "new", 1⟩

def toStable : PromoteTagInput :=
  { toProduction with dstRepo := "staging", dstTag := "stable" }

theorem promotion_within_repository :
    (promoteTag .quiet stagedImage toStable).2 = .ok (promotionRow toStable "sha256:m") ∧
      Delivered (promoteTag .quiet stagedImage toStable).1.store toStable
        ⟨0, "staging", "t", "sha256:m", mediaTypeOCIManifest, [1], 0, 0, none, none⟩ := by
  have hok : (promoteTag .quiet stagedImage toStable).2 =
      .ok (promotionRow toStable "sha256:m") := by decide +kernel
  refine ⟨hok, ((promotion_delivers_iff .quiet stagedImage toStable).2 _ hok
    ⟨"staging", "t", "v1", "sha256:m", false⟩ (by decide +kernel) _ (by decide +kernel)).mpr ?_⟩
  refine ⟨⟨"staging", "o", "t", "staging", false, 0, 0⟩, by decide +kernel,
    ⟨_, by decide +kernel, rfl⟩, ?_⟩
  intro t ht
  have hnone : stagedImage.store.tags.get ("staging", "stable") = none := by decide +kernel
  rw [show toStable.dstTag = "stable" from rfl, hnone] at ht
  cases ht

theorem promoted_tag_not_pullable :
    (promoteTag .quiet stagedImage toProduction).2 = .ok (promotionRow toProduction "sha256:m") ∧
    (sourceTag stagedImage.store toProduction).map (·.repoID) = some "staging" ∧
    (stagedImage.store.resolveTag "t" "staging" "v1").isSome ∧
    (destinationRepo (promoteTag .quiet stagedImage toProduction).1.store toProduction).map
      (·.id) = some "production" ∧
    ((promoteTag .quiet stagedImage toProduction).1.store.getTag "t" "production" "v1").map
      (·.manifestDigest) = some "sha256:m" ∧
    (promoteTag .quiet stagedImage toProduction).1.store.resolveTag "t" "production" "v1" =
      none := by
  decide +kernel

end OciJanus.Metadata.Promotion
