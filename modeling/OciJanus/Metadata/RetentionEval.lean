import OciJanus.Core.TagList
import OciJanus.Metadata.Tables
import OciJanus.Verified.MachineInt
import Mathlib.Data.List.Dedup

/-!
# Retention: which tags protect a manifest

A media type with parameters, entries beyond the first thousand and an edge of the same index in
another repository keep an edge out.
-/

namespace OciJanus.Metadata.RetentionEval

open Core.TagList (Collation byText)
open Verified KeyedTable MachineInt Run Sha256 Metadata List

structure EvalManifest where
  manifestID : Nat
  digest : String
  (sizeBytes createdAt : Int)
  lastPulledAt : Option Int
  tags : List String

section
variable (c : Collation) (s : Store)

def tagsOn (repoID digest : String) : List String :=
  (s.tags.rows.filter fun t => t.repoID = repoID ∧ t.manifestDigest = digest).map (·.name)

def inheritedTags (m : Manifest) : List String :=
  (s.manifestChildren.rows.filter fun mc =>
      mc.tenantID = m.tenantID ∧ mc.childDigest = m.digest).flatMap fun mc =>
    tagsOn s mc.repoID mc.parentDigest

def aggregatedTags (m : Manifest) : List String :=
  (tagsOn s m.repoID m.digest ++ inheritedTags s m).dedup.insertionSort c.Le

def evalRow (m : Manifest) : EvalManifest where
  manifestID := m.id
  digest := m.digest
  sizeBytes := m.imageSizeBytes
  createdAt := m.createdAt
  lastPulledAt := m.lastPulledAt
  tags := aggregatedTags c s m

def NewestFirst (m n : EvalManifest) : Prop :=
  n.createdAt < m.createdAt ∨ (m.createdAt = n.createdAt ∧ c.Le m.digest n.digest)

instance : DecidableRel (NewestFirst c) := fun m n => by
  unfold NewestFirst
  infer_instance

def loadManifestsForEval (tenantID repoID : String) : List EvalManifest :=
  ((s.manifests.rows.filter fun m => m.repoID = repoID ∧ m.tenantID = tenantID).map
    (evalRow c s)).insertionSort (NewestFirst c)

end

inductive RuleKind where
  | danglingGraceDays
  | maxAgeDays
  | maxCount
  | maxIdleDays
  | maxSizeBytes
  deriving DecidableEq

def RuleKind.ascending : List RuleKind :=
  [.danglingGraceDays, .maxAgeDays, .maxCount, .maxIdleDays, .maxSizeBytes]

structure RetentionRule where
  kind : RuleKind
  value : Int
  deriving DecidableEq

structure Pattern where
  source : String
  matchString : String → Bool

structure Candidate where
  rules : List RetentionRule
  protectedTagPatterns : List String

def ruleFor (rules : List RetentionRule) (kind : RuleKind) : Option Int :=
  ((rules.filter fun r => r.kind = kind).getLast?).map (·.value)

def compileProtectedPatterns (compile : String → Option (String → Bool)) :
    List String → Option (List Pattern)
  | [] => some []
  | p :: ps => do
    let matcher ← compile p
    let rest ← compileProtectedPatterns compile ps
    return ⟨p, matcher⟩ :: rest

def matchesProtected (tags : List String) (patterns : List Pattern) : Option String :=
  tags.findSome? fun tag => (patterns.find? fun p => p.matchString tag).map (·.source)

def day : Int := 24 * 60 * 60 * 1000000000

def overSize (cap : Int) : Int → List EvalManifest → List Bool
  | _, [] => []
  | running, m :: ms =>
    if cap ≤ running then true :: overSize cap running ms
    else false :: overSize cap (int64 (running + m.sizeBytes)) ms

def buildMaxSizeSet (manifests : List EvalManifest) (rule : Option Int) : List Bool :=
  match rule with
  | some cap => if cap ≤ 0 then manifests.map fun _ => false else overSize cap 0 manifests
  | none => manifests.map fun _ => false

def selects (now : Int) (rules : List RetentionRule) (i : Nat) (m : EvalManifest)
    (overCap : Bool) : RuleKind → Bool
  | .maxAgeDays => (ruleFor rules .maxAgeDays).any fun days => m.createdAt < now - days * day
  | .maxCount => (ruleFor rules .maxCount).any fun keep : Int => max keep 0 ≤ (i : Int)
  | .maxSizeBytes => (ruleFor rules .maxSizeBytes).isSome && overCap
  | .danglingGraceDays =>
    (ruleFor rules .danglingGraceDays).any fun days =>
      m.tags = [] ∧ m.createdAt < now - days * day
  | .maxIdleDays =>
    (ruleFor rules .maxIdleDays).any fun days =>
      m.createdAt < now - days * day ∧ m.lastPulledAt.all fun pulled => pulled < now - days * day

structure EvaluationCandidate where
  manifestID : Nat
  manifestDigest : String
  tags : List String
  (pushedAt sizeBytes : Int)
  reasons : List RuleKind

structure EvaluationProtected where
  manifestID : Nat
  manifestDigest : String
  tags : List String
  matchedPattern : String

structure EvaluationResult where
  wouldDelete : List EvaluationCandidate
  protectedSkipped : List EvaluationProtected
  totalCount : Nat
  totalBytes : Int
  truncated : Bool

inductive Class where
  | skipped (p : EvaluationProtected)
  | kept
  | wouldDelete (c : EvaluationCandidate)

def classify (now : Int) (rules : List RetentionRule) (patterns : List Pattern) (i : Nat)
    (m : EvalManifest) (overCap : Bool) : Class :=
  match matchesProtected m.tags patterns with
  | some pattern => .skipped ⟨m.manifestID, m.digest, m.tags, pattern⟩
  | none =>
    let reasons := RuleKind.ascending.filter (selects now rules i m overCap)
    if reasons = [] then .kept
    else .wouldDelete ⟨m.manifestID, m.digest, m.tags, m.createdAt, m.sizeBytes, reasons⟩

def OldestFirst (a b : EvaluationCandidate) : Prop :=
  a.pushedAt < b.pushedAt ∨ (a.pushedAt = b.pushedAt ∧ a.manifestDigest ≤ b.manifestDigest)

instance : DecidableRel OldestFirst := fun a b => by
  unfold OldestFirst
  infer_instance

def Class.candidate? : Class → Option EvaluationCandidate
  | .wouldDelete c => some c
  | _ => none

def Class.protected? : Class → Option EvaluationProtected
  | .skipped p => some p
  | _ => none

def defaultMaxDeleteResults : Nat := 1000

def defaultMaxProtectedResults : Nat := 100

def limitOr (limit : Int) (default : Nat) : Nat := if limit ≤ 0 then default else limit.toNat

def classes (now : Int) (rules : List RetentionRule) (patterns : List Pattern)
    (manifests : List EvalManifest) : List Class :=
  let overCap := buildMaxSizeSet manifests (ruleFor rules .maxSizeBytes)
  (manifests.zip overCap).mapIdx fun i (m, capped) => classify now rules patterns i m capped

def evaluate (now : Int) (rules : List RetentionRule) (patterns : List Pattern)
    (manifests : List EvalManifest) (maxDeleteResults maxProtectedResults : Int) :
    EvaluationResult :=
  let found := classes now rules patterns manifests
  let deleted := found.filterMap Class.candidate?
  let fullDelete := deleted.insertionSort OldestFirst
  let maxDelete := limitOr maxDeleteResults defaultMaxDeleteResults
  { wouldDelete := fullDelete.take maxDelete
    protectedSkipped := (found.filterMap Class.protected?).take
      (limitOr maxProtectedResults defaultMaxProtectedResults)
    totalCount := deleted.length
    totalBytes := accumulate 0 (deleted.map (·.sizeBytes))
    truncated := decide (maxDelete < fullDelete.length) }

def evaluateRetention (c : Collation) (compile : String → Option (String → Bool)) (s : Store)
    (now : Int) (tenantID repoID : String) (candidate : Candidate)
    (maxDeleteResults maxProtectedResults : Int) : Option EvaluationResult := do
  let manifests := loadManifestsForEval c s tenantID repoID
  let patterns ← compileProtectedPatterns compile candidate.protectedTagPatterns
  return evaluate now candidate.rules patterns manifests maxDeleteResults maxProtectedResults

section
variable {c : Collation} {s : Store} {tenantID repoID : String}

theorem mem_tagsOn {digest name : String} :
    name ∈ tagsOn s repoID digest ↔
      ∃ t ∈ s.tags.rows, t.repoID = repoID ∧ t.manifestDigest = digest ∧ t.name = name := by
  simp [tagsOn, and_assoc]

theorem mem_aggregatedTags_of_edge {m : Manifest} {e : ManifestChild} {t : Tag}
    (he : e ∈ s.manifestChildren.rows) (htenant : e.tenantID = m.tenantID)
    (hchild : e.childDigest = m.digest) (ht : t ∈ s.tags.rows) (hrepo : t.repoID = e.repoID)
    (hparent : t.manifestDigest = e.parentDigest) : t.name ∈ aggregatedTags c s m := by
  unfold aggregatedTags
  rw [mem_insertionSort, mem_dedup, mem_append]
  refine Or.inr (mem_flatMap.mpr ⟨e, ?_, ?_⟩)
  · simp [he, htenant, hchild]
  · exact mem_tagsOn.mpr ⟨t, ht, hrepo, hparent, rfl⟩

theorem mem_loadManifestsForEval {row : EvalManifest} :
    row ∈ loadManifestsForEval c s tenantID repoID ↔
      ∃ m ∈ s.manifests.rows, m.repoID = repoID ∧ m.tenantID = tenantID ∧ evalRow c s m = row := by
  simp [loadManifestsForEval, and_assoc]

variable {patterns : List Pattern}

theorem compileProtectedPatterns_mem {compile : String → Option (String → Bool)}
    {sources : List String}
    (h : compileProtectedPatterns compile sources = some patterns) {source : String}
    (hs : source ∈ sources) :
    ∃ p ∈ patterns, p.source = source ∧ compile source = some p.matchString := by
  induction sources generalizing patterns with
  | nil => cases hs
  | cons first rest ih =>
    cases hc : compile first with
    | none => simp [compileProtectedPatterns, hc] at h
    | some matcher =>
      cases hr : compileProtectedPatterns compile rest with
      | none => simp [compileProtectedPatterns, hc, hr] at h
      | some others =>
        simp [compileProtectedPatterns, hc, hr] at h
        subst h
        rcases mem_cons.mp hs with rfl | hs
        · exact ⟨⟨source, matcher⟩, by simp, rfl, hc⟩
        · obtain ⟨p, hp, hsource, hcompile⟩ := ih hr hs
          exact ⟨p, by simp [hp], hsource, hcompile⟩

theorem matchesProtected_eq_none_iff {tags : List String} :
    matchesProtected tags patterns = none ↔
      ∀ tag ∈ tags, ∀ p ∈ patterns, p.matchString tag = false := by
  simp [matchesProtected]

theorem classify_candidate {now : Int} {rules : List RetentionRule}
    {i : Nat} {m : EvalManifest} {overCap : Bool} {d : EvaluationCandidate}
    (h : (classify now rules patterns i m overCap).candidate? = some d) :
    d.manifestDigest = m.digest ∧ matchesProtected m.tags patterns = none ∧
      ∀ k ∈ d.reasons, selects now rules i m overCap k = true := by
  unfold classify at h
  cases hp : matchesProtected m.tags patterns with
  | some pattern =>
    rw [hp] at h
    cases h
  | none =>
    simp only [hp] at h
    split_ifs at h with hreasons
    · cases h
    · cases h
      exact ⟨rfl, rfl, fun k hk => (mem_filter.mp hk).2⟩

theorem evaluateRetention_wouldDelete {compile : String → Option (String → Bool)} {now : Int}
    {candidate : Candidate} {maxDelete maxProtected : Int} {result : EvaluationResult}
    (h : evaluateRetention c compile s now tenantID repoID candidate maxDelete maxProtected =
      some result) {d : EvaluationCandidate} (hd : d ∈ result.wouldDelete) :
    ∃ row ∈ loadManifestsForEval c s tenantID repoID, ∃ patterns,
      compileProtectedPatterns compile candidate.protectedTagPatterns = some patterns ∧
      d.manifestDigest = row.digest ∧ matchesProtected row.tags patterns = none ∧
      ∃ i overCap, ∀ k ∈ d.reasons, selects now candidate.rules i row overCap k = true := by
  unfold evaluateRetention at h
  cases hp : compileProtectedPatterns compile candidate.protectedTagPatterns with
  | none => simp [hp] at h
  | some patterns =>
    simp only [hp, Option.bind_eq_bind, Option.bind_some, Option.pure_def, Option.some.injEq] at h
    subst h
    have hmem := mem_of_mem_take hd
    rw [mem_insertionSort, mem_filterMap] at hmem
    obtain ⟨found, hfound, hcandidate⟩ := hmem
    unfold classes at hfound
    obtain ⟨i, hi, rfl⟩ := mem_mapIdx.mp hfound
    obtain ⟨hdigest, hunmatched, hreasons⟩ := classify_candidate hcandidate
    exact ⟨_, (of_mem_zip (getElem_mem hi)).1, patterns, rfl, hdigest, hunmatched, i, _,
      hreasons⟩

theorem tags_eq_nil_of_dangling {now : Int} {rules : List RetentionRule} {i : Nat}
    {m : EvalManifest} {overCap : Bool}
    (h : selects now rules i m overCap .danglingGraceDays = true) : m.tags = [] := by
  simp only [selects, Option.any_eq_true, decide_eq_true_eq] at h
  obtain ⟨_, _, htags, _⟩ := h
  exact htags

end

def AcceptedIndex (mt : String) : Prop :=
  isAllowedManifestMediaType mt = true ∧ mediaTypeBase mt = mediaTypeOCIIndex
  deriving Decidable

def EdgesRecorded (docs : Documents) (s : Store) : Prop :=
  ∀ m ∈ s.manifests.rows, AcceptedIndex m.mediaType → ∀ child, docs.Lists m.rawJSON child →
    ⟨m.repoID, m.tenantID, m.digest, child⟩ ∈ s.manifestChildren.rows

def RecordsEdges (docs : Documents) (s : Store) : Store.Op → Prop
  | .putManifest _ tenantID repoID digest mediaType rawJSON =>
    AcceptedIndex mediaType → mediaType = mediaTypeOCIIndex ∧
      (∀ digests ∈ docs.manifestDigests rawJSON, digests.length ≤ maxManifestEntries) ∧
      ∀ e ∈ s.manifestChildren.rows, e.tenantID = tenantID → e.parentDigest = digest →
        docs.Lists rawJSON e.childDigest → e.repoID = repoID
  | _ => True

instance (docs : Documents) (s : Store) (op : Store.Op) : Decidable (RecordsEdges docs s op) := by
  cases op <;> unfold RecordsEdges <;> infer_instance

variable {docs : Documents}

theorem mem_parseChildManifestDigests {rawJSON : Bytes} {child : String}
    (hlists : docs.Lists rawJSON child)
    (hlength : ∀ digests ∈ docs.manifestDigests rawJSON, digests.length ≤ maxManifestEntries) :
    child ∈ parseChildManifestDigests docs rawJSON mediaTypeOCIIndex := by
  obtain ⟨hne, digests, hsome, hmem⟩ := hlists
  have hdigests : docs.manifestDigests rawJSON = some digests := hsome
  have hraw : rawJSON ≠ [] := by
    rintro rfl
    rw [docs.manifestDigests_nil] at hdigests
    cases hdigests
  unfold parseChildManifestDigests
  rw [if_pos (Or.inl rfl), if_neg hraw, hdigests]
  have htake : digests.take maxManifestEntries = digests :=
    take_of_length_le (hlength digests hsome)
  show child ∈ distinctDigests [] (digests.take maxManifestEntries)
  rw [htake]
  exact mem_distinctDigests.mpr ⟨hne, by simp, hmem⟩

theorem putManifest_edgesRecorded {s s' : Store} {now : Int}
    {tenantID repoID digest mediaType : String} {rawJSON : Bytes} (hs : EdgesRecorded docs s)
    (hguard : RecordsEdges docs s (.putManifest now tenantID repoID digest mediaType rawJSON))
    (heffect : Store.PutManifestEffect docs s s' now tenantID repoID digest mediaType rawJSON) :
    EdgesRecorded docs s' := by
  intro m hm haccepted child hlists
  have hget := s'.manifests.get_key hm
  rw [heffect.children]
  by_cases hk : (m.repoID, m.digest) = (repoID, digest)
  · obtain ⟨row, hrow, htenant, hmedia, hraw, _⟩ := heffect.row
    rw [hk, hrow, Option.some.injEq] at hget
    subst hget
    rw [hmedia] at haccepted
    rw [hraw] at hlists
    obtain ⟨hexact, hlength, helsewhere⟩ := hguard haccepted
    obtain ⟨hrepo, hdigest⟩ := Prod.mk.inj hk
    rw [hrepo, hdigest, htenant]
    have hparsed := mem_parseChildManifestDigests hlists hlength
    -- either the edge is new, or the one that is there is this repository's
    cases hold : s.manifestChildren.get (tenantID, digest, child) with
    | none => exact Or.inr ⟨child, hexact ▸ hparsed, rfl, hold⟩
    | some e =>
      obtain ⟨htenant', hparent, hchild⟩ : e.tenantID = tenantID ∧ e.parentDigest = digest ∧
          e.childDigest = child := by simpa using Table.key_of_get hold
      have hmem := Table.mem_of_get hold
      have hsame := helsewhere e hmem htenant' hparent (hchild ▸ hlists)
      have he : e = ⟨repoID, tenantID, digest, child⟩ := by
        cases e
        simp_all
      exact Or.inl (he ▸ hmem)
  · rw [heffect.others _ hk] at hget
    exact Or.inl (hs m (Table.mem_of_get hget) haccepted child hlists)

theorem EdgesRecorded.of_same {s s' : Store} (hs : EdgesRecorded docs s)
    (hmanifests : ∀ m ∈ s'.manifests.rows, m ∈ s.manifests.rows)
    (hchildren : s'.manifestChildren = s.manifestChildren) : EdgesRecorded docs s' := by
  intro m hm haccepted child hlists
  rw [hchildren]
  exact hs m (hmanifests m hm) haccepted child hlists

theorem apply_edgesRecorded (docs : Documents) (s : Store) (op : Store.Op)
    (hs : EdgesRecorded docs s) (hguard : RecordsEdges docs s op) :
    EdgesRecorded docs (s.apply docs op) := by
  unfold Store.apply
  cases hexec : s.exec docs op with
  | error e => exact hs
  | ok s' =>
    cases op with
    | putManifest now tenantID repoID digest mediaType rawJSON =>
      exact putManifest_edgesRecorded hs hguard (Store.putManifest_ok hexec)
    | putTag tenantID repoID name manifestDigest =>
      have heffect := Store.putTag_ok hexec
      exact hs.of_same (by simp [heffect.manifests]) heffect.manifestChildren
    | deleteTag tenantID repoID name =>
      obtain ⟨_, _, hmanifests, hchildren, _⟩ := Store.deleteTag_ok hexec
      exact hs.of_same (by simp [hmanifests]) hchildren
    | deleteManifest tenantID repoID digest =>
      obtain ⟨_, _, _, hchildren, hmanifests⟩ := Store.deleteManifest_ok hexec
      refine hs.of_same (fun m hm => ?_) hchildren
      rw [hmanifests, Table.mem_remove] at hm
      exact hm.1

structure Inherits (c : Collation) (s : Store) (t : Tag) (tenantID child : String) : Prop where
  row : ∀ m ∈ s.manifests.rows, m.repoID = t.repoID → m.tenantID = tenantID → m.digest = child →
    evalRow c s m ∈ loadManifestsForEval c s tenantID t.repoID ∧ t.name ∈ (evalRow c s m).tags
  kept : ∀ compile now candidate maxDelete maxProtected result,
    evaluateRetention c compile s now tenantID t.repoID candidate maxDelete maxProtected =
      some result →
    ∀ d ∈ result.wouldDelete, d.manifestDigest = child → .danglingGraceDays ∉ d.reasons ∧
      ∀ source ∈ candidate.protectedTagPatterns, ∀ matcher ∈ compile source, matcher t.name = false

theorem inherits_of_row {c : Collation} {s : Store} {t : Tag} {tenantID child : String}
    (h : ∀ m : Manifest, m.tenantID = tenantID → m.digest = child → t.name ∈ (evalRow c s m).tags) :
    Inherits c s t tenantID child where
  row m hm hrepo htenant hdigest :=
    ⟨mem_loadManifestsForEval.mpr ⟨m, hm, hrepo, htenant, rfl⟩, h m htenant hdigest⟩
  kept compile now candidate maxDelete maxProtected result hresult d hd hchild := by
    obtain ⟨row, hrow, patterns, hpatterns, hdigest, hunprotected, i, overCap, hreasons⟩ :=
      evaluateRetention_wouldDelete hresult hd
    obtain ⟨m, _, _, htenant, rfl⟩ := mem_loadManifestsForEval.mp hrow
    have htag := h m htenant (hdigest.symm.trans hchild)
    constructor
    · intro hreason
      rw [tags_eq_nil_of_dangling (hreasons _ hreason)] at htag
      cases htag
    · intro source hsource matcher hmatcher
      obtain ⟨p, hp, _, hcompile⟩ := compileProtectedPatterns_mem hpatterns hsource
      rw [hcompile, Option.mem_some] at hmatcher
      rw [← hmatcher]
      exact matchesProtected_eq_none_iff.mp hunprotected _ htag p hp

/-- **Index children inherit their parents' tags**, where edges are recorded. -/
theorem index_children_inherit (c : Collation) (docs : Documents) (organizations : Organizations)
    (repositories : Repositories) (ops : List Store.Op)
    (h : Guarded (Store.apply docs) (RecordsEdges docs)
      (Store.fresh organizations repositories) ops) :
    let s := run (Store.apply docs) (Store.fresh organizations repositories) ops
    ∀ t ∈ s.tags.rows, ∀ p ∈ s.manifests.rows, p.repoID = t.repoID →
      p.digest = t.manifestDigest → AcceptedIndex p.mediaType →
        ∀ child, docs.Lists p.rawJSON child → Inherits c s t p.tenantID child := by
  intro s t ht p hp hrepo hdigest haccepted child hlists
  have hrecorded : EdgesRecorded docs s :=
    run_invariant (apply_edgesRecorded docs) (fun _ hm => nomatch hm) h
  have hedge := hrecorded p hp haccepted child hlists
  refine inherits_of_row fun m htenant hchild => ?_
  exact mem_aggregatedTags_of_edge hedge htenant.symm hchild.symm ht hrepo.symm hdigest.symm

def twoRepositories : Repositories :=
  ⟨["r1", "r2"].map fun id =>
      { id := id, orgID := "o", tenantID := "t", name := id, immutableTags := false,
        storageUsed := 0, createdAt := 0 }, by decide⟩

def pushImage (repoID : String) : List Store.Op :=
  [.putManifest 0 "t" repoID "sha256:c" mediaTypeOCIManifest [1],
    .putManifest 0 "t" repoID "sha256:p" mediaTypeOCIIndex indexBody]

def storeAfter (ops : List Store.Op) : Store :=
  run (Store.apply indexDocuments) (Store.fresh ⟨[], nodup_nil⟩ twoRepositories) ops

def pushAndTag : List Store.Op := pushImage "r1" ++ [.putTag "t" "r1" "v1" "sha256:p"]

theorem one_repository_inherits :
    Inherits byText (storeAfter pushAndTag) ⟨"r1", "t", "v1", "sha256:p", false⟩ "t" "sha256:c" :=
  index_children_inherit byText indexDocuments ⟨[], nodup_nil⟩ twoRepositories pushAndTag
    (by decide +kernel) ⟨"r1", "t", "v1", "sha256:p", false⟩ (by decide +kernel)
    ⟨1, "r1", "t", "sha256:p", mediaTypeOCIIndex, indexBody, 0, 0, none, none⟩ (by decide +kernel)
    rfl rfl (by decide +kernel) "sha256:c" (by decide +kernel)

def pushedTwice : Store :=
  storeAfter (pushImage "r1" ++ pushImage "r2" ++ [.putTag "t" "r2" "v1" "sha256:p"])

theorem second_push_leaves_child_dangling :
    (pushedTwice.getTag "t" "r2" "v1").map (·.manifestDigest) = some "sha256:p" ∧
    (pushedTwice.manifestRow "t" "r2" "sha256:p").map (·.rawJSON) = some indexBody ∧
    AcceptedIndex mediaTypeOCIIndex ∧ indexDocuments.Lists indexBody "sha256:c" ∧
    (loadManifestsForEval byText pushedTwice "t" "r2").map (fun row => (row.digest, row.tags)) =
      [("sha256:c", []), ("sha256:p", ["v1"])] ∧
    (evaluateRetention byText (fun _ => none) pushedTwice (30 * day) "t" "r2"
        ⟨[⟨.danglingGraceDays, 7⟩], []⟩ 0 0).map
      (fun result => result.wouldDelete.map fun d => (d.manifestDigest, d.reasons)) =
      some [("sha256:c", [.danglingGraceDays])] := by
  decide +kernel

end OciJanus.Metadata.RetentionEval
