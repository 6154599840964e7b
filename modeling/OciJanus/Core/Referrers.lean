import OciJanus.Gc.Deleters
import OciJanus.Verified.AddOnlyIndex

/-!
# Referrers

An index that is only added to beside its table (`Verified.AddOnlyIndex`).
-/

namespace OciJanus.Core.Referrers

open Core.Upload (digestOf)
open Core.UploadHandlers (matchesDigestRE)
open Gc.Deleters (System.deleteReference)
open Verified AddOnlyIndex KeyedTable Run Sha256 Utf8 Metadata Function List

structure Subject where
  (mediaType digest : String)
  size : Int

structure ManifestFields where
  subject : Option Subject
  artifactType : String
  config : Option String
  annotations : List (String × String)

def ManifestFields.effectiveArtifactType (mf : ManifestFields) : String :=
  if mf.artifactType = "" then mf.config.getD "" else mf.artifactType

structure ReferrerDescriptor where
  (mediaType digest : String)
  size : Int
  artifactType : String
  annotations : List (String × String)
  deriving DecidableEq

structure Config where
  docs : Documents
  fields : Bytes → Option ManifestFields

section Bodies

variable (cfg : Config)

def Config.subject (rawJSON : Bytes) : Option String :=
  (cfg.fields rawJSON).bind fun mf => mf.subject.map (·.digest)

def Config.artifactType (rawJSON : Bytes) : String :=
  ((cfg.fields rawJSON).map (·.effectiveArtifactType)).getD ""

def Config.descriptor (mediaType digest : String) (rawJSON : Bytes) : ReferrerDescriptor where
  mediaType := mediaType
  digest := digest
  size := rawJSON.length
  artifactType := cfg.artifactType rawJSON
  annotations := ((cfg.fields rawJSON).map (·.annotations)).getD []

end Bodies

abbrev ReferrerStore := String → List ReferrerDescriptor

def referrerKey (tenantID repoName subjectDigest : String) : String :=
  "refs:" ++ tenantID ++ ":" ++ repoName ++ ":" ++ subjectDigest

theorem referrerKey_inj {tenantID repoName d d' : String} :
    referrerKey tenantID repoName d = referrerKey tenantID repoName d' ↔ d = d' := by
  constructor
  · intro h
    have htext := congrArg String.toList h
    simp only [referrerKey, String.toList_append, append_cancel_left_eq] at htext
    exact String.toList_inj.mp htext
  · intro h
    rw [h]

def add (rs : ReferrerStore) (tenantID repoName subjectDigest : String)
    (desc : ReferrerDescriptor) : ReferrerStore :=
  let key := referrerKey tenantID repoName subjectDigest
  update rs key (Pair.insertEntry (rs key) desc)

def list (rs : ReferrerStore) (tenantID repoName subjectDigest : String) :
    List ReferrerDescriptor :=
  rs (referrerKey tenantID repoName subjectDigest)

structure State where
  store : Store
  referrers : ReferrerStore

structure Repo where
  (tenantID repoID repoName : String)

inductive PutError where
  | immutable
  | putManifest
  | putTag

inductive Action where
  | putManifest (now : Int) (reference mediaType : String) (rawJSON : Bytes) (refused : Bool)
  | deleteManifest (reference : String)

section Requests

variable (cfg : Config) (repo : Repo)

def putReference (s : Store) (reference digest : String) : Except RepoError Store :=
  if matchesDigestRE reference then .ok s
  else s.putTag repo.tenantID repo.repoID reference digest

def registerReferrer (rs : ReferrerStore) (mediaType digest : String) (rawJSON : Bytes) :
    String × ReferrerStore :=
  match cfg.subject rawJSON with
  | none => ("", rs)
  | some subjectDigest =>
    if matchesDigestRE subjectDigest then
      (subjectDigest, add rs repo.tenantID repo.repoName subjectDigest
        (cfg.descriptor mediaType digest rawJSON))
    else ("", rs)

def putManifest (s : State) (now : Int) (reference mediaType : String) (rawJSON : Bytes)
    (refused : Bool) : Except PutError (String × String) × State :=
  let digest := digestOf rawJSON
  if !matchesDigestRE reference && refused then (.error .immutable, s)
  else
    match s.store.putManifest cfg.docs now repo.tenantID repo.repoID digest mediaType rawJSON with
    | .error _ => (.error .putManifest, s)
    | .ok store =>
      match putReference repo store reference digest with
      | .error _ => (.error .putTag, { s with store := store })
      | .ok store' =>
        let (subjectDigest, referrers) :=
          registerReferrer cfg repo s.referrers mediaType digest rawJSON
        (.ok (digest, subjectDigest), ⟨store', referrers⟩)

def deleteManifest (s : State) (reference : String) : State :=
  { s with
    store := s.store.orSame (System.deleteReference s.store repo.tenantID repo.repoID reference) }

def step (s : State) : Action → State
  | .putManifest now reference mediaType rawJSON refused =>
    (putManifest cfg repo s now reference mediaType rawJSON refused).2
  | .deleteManifest reference => deleteManifest repo s reference

def getReferrers (s : State) (subjectDigest artifactType : String) :
    List ReferrerDescriptor × Bool :=
  let all := list s.referrers repo.tenantID repo.repoName subjectDigest
  if artifactType = "" then (all, false)
  else (all.filter fun d => d.artifactType = artifactType, true)

def Refers (s : State) (digest subjectDigest artifactType : String) : Prop :=
  ∃ m, s.store.manifestRow repo.tenantID repo.repoID digest = some m ∧
    cfg.subject m.rawJSON = some subjectDigest ∧
    (artifactType ≠ "" → cfg.artifactType m.rawJSON = artifactType)

def Exact (s : State) : Prop :=
  ∀ subjectDigest artifactType,
    ((getReferrers repo s subjectDigest artifactType).1.map (·.digest)).Nodup ∧
      ∀ digest, digest ∈ (getReferrers repo s subjectDigest artifactType).1.map (·.digest) ↔
        Refers cfg repo s digest subjectDigest artifactType

/-- The push is of a digest or a tag it may write, to a repository that is there, and the row of the
document, if there is one, is the tenant's. -/
def Accepts (s : State) (reference : String) (rawJSON : Bytes) (refused : Bool) : Prop :=
  (matchesDigestRE reference = true ∨ refused = false) ∧
    s.store.repositories.get repo.repoID ≠ none ∧
    ∀ m, s.store.manifests.get (repo.repoID, digestOf rawJSON) = some m →
      m.tenantID = repo.tenantID

def Keeps (s : State) : Action → Prop
  | .putManifest _ reference mediaType rawJSON refused =>
    Accepts repo s reference rawJSON refused →
      (∀ d, cfg.subject rawJSON = some d → matchesDigestRE d = true) ∧
        ∀ m d, s.store.manifestRow repo.tenantID repo.repoID (digestOf rawJSON) = some m →
          cfg.subject m.rawJSON = some d → cfg.subject rawJSON = some d ∧
            cfg.descriptor mediaType (digestOf rawJSON) rawJSON =
              cfg.descriptor m.mediaType (digestOf rawJSON) m.rawJSON
  | .deleteManifest reference =>
    matchesDigestRE reference = true →
      ∀ m, s.store.manifestRow repo.tenantID repo.repoID reference = some m →
        cfg.subject m.rawJSON = none

def schema : Schema String (String × Bytes) String ReferrerDescriptor where
  subject r := cfg.subject r.2
  indexed := matchesDigestRE
  entry d r := cfg.descriptor r.1 d r.2
  name := (·.digest)
  name_entry _ _ := rfl

def view (s : State) : Pair String (String × Bytes) String ReferrerDescriptor where
  rows d := (s.store.manifestRow repo.tenantID repo.repoID d).map fun m => (m.mediaType, m.rawJSON)
  entries := list s.referrers repo.tenantID repo.repoName

end Requests

variable {cfg : Config} {repo : Repo} {s : State}

theorem list_add (rs : ReferrerStore) (tenantID repoName d d' : String)
    (desc : ReferrerDescriptor) :
    list (add rs tenantID repoName d desc) tenantID repoName d' =
      if d' = d then Pair.insertEntry (list rs tenantID repoName d) desc
      else list rs tenantID repoName d' := by
  unfold list add
  by_cases h : d' = d
  · rw [h, if_pos rfl, update_self]
  · rw [if_neg h, update_of_ne]
    intro hkey
    exact h (referrerKey_inj.mp hkey)

theorem list_registerReferrer (rs : ReferrerStore) (mediaType digest : String) (rawJSON : Bytes) :
    list (registerReferrer cfg repo rs mediaType digest rawJSON).2 repo.tenantID repo.repoName =
      Pair.enter (schema cfg) (list rs repo.tenantID repo.repoName) digest
        (mediaType, rawJSON) := by
  funext d
  unfold registerReferrer Pair.enter
  show _ = if cfg.subject rawJSON = some d ∧ matchesDigestRE d = true then _ else _
  cases cfg.subject rawJSON with
  | none => simp
  | some d' =>
    by_cases hre : matchesDigestRE d' = true
    · simp only [hre, if_true, list_add]
      by_cases hd : d = d'
      · subst hd
        simp [hre, schema]
      · have hne : ¬ d' = d := fun h => hd h.symm
        simp [hd, hne]
    · have hand : ¬ (d' = d ∧ matchesDigestRE d = true) := by
        rintro ⟨rfl, h⟩
        exact hre h
      simp [hre, hand]

theorem view_rows_congr {s s' : State} (h : s'.store.manifests = s.store.manifests) :
    (view repo s').rows = (view repo s).rows := by
  funext d
  simp only [view, Store.manifestRow, h]

theorem putReference_ok {store : Store} (h : store.repositories.get repo.repoID ≠ none)
    (reference digest : String) :
    ∃ store', putReference repo store reference digest = .ok store' ∧
      store'.manifests = store.manifests := by
  unfold putReference
  split_ifs with hre
  · exact ⟨store, rfl, rfl⟩
  · cases htag : store.putTag repo.tenantID repo.repoID reference digest with
    | error e =>
      unfold Store.putTag at htag
      rw [dif_neg h] at htag
      cases htag
    | ok store' => exact ⟨store', rfl, (Store.putTag_ok htag).manifests⟩

theorem view_rows_put {docs : Documents} {s : State} (s' : State) {now : Int}
    {digest mediaType : String} {rawJSON : Bytes}
    (h : Store.PutManifestEffect docs s.store s'.store now repo.tenantID repo.repoID digest
      mediaType rawJSON) :
    (view repo s').rows =
      update (view repo s).rows digest (some (mediaType, rawJSON)) := by
  funext d
  by_cases hd : d = digest
  · subst hd
    obtain ⟨m, hm, htenant, hmedia, hraw, _⟩ := h.row
    have hrow : s'.store.manifestRow repo.tenantID repo.repoID d = some m :=
      Store.manifestRow_eq_some.mpr ⟨hm, htenant⟩
    rw [update_self]
    simp only [view, hrow, Option.map_some, hmedia, hraw]
  · have hkey : (repo.repoID, d) ≠ (repo.repoID, digest) := by
      intro heq
      exact hd (Prod.mk.inj heq).2
    rw [update_of_ne hd]
    simp only [view, Store.manifestRow, h.others _ hkey]

theorem view_putManifest (cfg : Config) (repo : Repo) (s : State) (now : Int)
    (reference mediaType : String) (rawJSON : Bytes) (refused : Bool) :
    (Accepts repo s reference rawJSON refused ∧
      view repo (putManifest cfg repo s now reference mediaType rawJSON refused).2 =
        (view repo s).put (schema cfg) (digestOf rawJSON) (mediaType, rawJSON)) ∨
      (¬ Accepts repo s reference rawJSON refused ∧
        (putManifest cfg repo s now reference mediaType rawJSON refused).2 = s) := by
  unfold putManifest
  simp only
  split_ifs with hrefused
  · refine Or.inr ⟨fun haccepts => ?_, rfl⟩
    simp only [Bool.and_eq_true, Bool.not_eq_true'] at hrefused
    simpa [hrefused] using haccepts.1
  · have hok : (s.store.putManifest cfg.docs now repo.tenantID repo.repoID (digestOf rawJSON)
        mediaType rawJSON).isOk = true ↔ Accepts repo s reference rawJSON refused := by
      rw [Store.putManifest_isOk_iff]
      exact (and_iff_right (by simpa [or_iff_not_imp_left] using hrefused)).symm
    rw [← hok]
    cases hput : s.store.putManifest cfg.docs now repo.tenantID repo.repoID (digestOf rawJSON)
      mediaType rawJSON with
    | error e => exact Or.inr ⟨by simp [Except.isOk, Except.toBool], rfl⟩
    | ok store =>
      left
      have heffect := Store.putManifest_ok hput
      have hrepo : store.repositories.get repo.repoID ≠ none := by
        obtain ⟨m, hm, _⟩ := heffect.row
        have hmem := store.manifests_repo m (Table.mem_of_get hm)
        rwa [(Store.manifests_get_key hm).1] at hmem
      obtain ⟨store', htag, hmanifests⟩ :=
        putReference_ok hrepo reference (digestOf rawJSON)
      simp only [htag]
      refine ⟨rfl, ?_⟩
      apply congrArg₂ Pair.mk
      · have hrows := view_rows_put ⟨store, s.referrers⟩ heffect
        rw [← hrows]
        exact view_rows_congr hmanifests
      · exact list_registerReferrer s.referrers mediaType (digestOf rawJSON) rawJSON

theorem manifestRow_deleteManifest (store : Store) (tenantID repoID reference d : String) :
    (store.orSame (store.deleteManifest tenantID repoID reference)).manifestRow tenantID repoID d =
      if d = reference then none else store.manifestRow tenantID repoID d := by
  have hhit : ∀ m, store.manifests.get (repoID, d) = some m → m.tenantID = tenantID →
      (Store.deleteManifestHit tenantID repoID reference m = true ↔ d = reference) := by
    intro m hm htenant
    obtain ⟨hrepo, hdigest⟩ := Store.manifests_get_key hm
    simp [Store.deleteManifestHit, hrepo, hdigest, htenant]
  unfold Store.deleteManifest
  split_ifs with hany hd hd
  · subst hd
    apply Option.eq_none_iff_forall_not_mem.mpr
    intro m hm
    obtain ⟨hget, htenant⟩ := Store.manifestRow_eq_some.mp hm
    simp only [Store.orSame, Table.get_remove, Option.filter_eq_some_iff] at hget
    simp [(hhit m hget.1 htenant).mpr rfl] at hget
  · apply Option.ext
    intro m
    rw [Store.manifestRow_eq_some, Store.manifestRow_eq_some]
    simp only [Store.orSame, Table.get_remove, Option.filter_eq_some_iff]
    constructor
    · intro h
      exact ⟨h.1.1, h.2⟩
    · intro h
      refine ⟨⟨h.1, ?_⟩, h.2⟩
      simpa using fun htrue => hd ((hhit m h.1 h.2).mp htrue)
  · subst hd
    apply Option.eq_none_iff_forall_not_mem.mpr
    intro m hm
    obtain ⟨hget, htenant⟩ := Store.manifestRow_eq_some.mp hm
    apply hany
    rw [any_eq_true]
    exact ⟨m, Table.mem_of_get hget, (hhit m hget htenant).mpr rfl⟩
  · rfl

theorem view_deleteManifest (s : State) {reference : String}
    (hre : matchesDigestRE reference = true) :
    view repo (deleteManifest repo s reference) = (view repo s).delete reference := by
  apply congrArg₂ Pair.mk _ rfl
  funext d
  unfold deleteManifest System.deleteReference
  rw [if_pos hre, manifestRow_deleteManifest]
  by_cases hd : d = reference
  · subst hd
    rw [if_pos rfl, update_self]
    rfl
  · rw [if_neg hd, update_of_ne hd]
    rfl

theorem view_deleteManifest_tag (s : State) {reference : String}
    (hre : ¬ matchesDigestRE reference = true) :
    view repo (deleteManifest repo s reference) = view repo s := by
  apply congrArg₂ Pair.mk _ rfl
  apply view_rows_congr
  unfold deleteManifest System.deleteReference
  rw [if_neg hre]
  apply Store.orSame_of (P := fun t => t.manifests = s.store.manifests) rfl
  intro s' hok
  exact (Store.deleteTag_ok hok).2.2.1

theorem view_refers {d subjectDigest : String} :
    (view repo s).Refers (schema cfg) d subjectDigest ↔ Refers cfg repo s d subjectDigest "" := by
  unfold Pair.Refers Refers view
  simp only [Option.map_eq_some_iff]
  constructor
  · rintro ⟨_, ⟨m, hm, rfl⟩, hsubject⟩
    exact ⟨m, hm, hsubject, fun h => absurd rfl h⟩
  · rintro ⟨m, hm, hsubject, _⟩
    exact ⟨_, ⟨m, hm, rfl⟩, hsubject⟩

theorem exact_iff (hwf : (view repo s).Wf (schema cfg)) :
    Exact cfg repo s ↔ (view repo s).Lists (schema cfg) := by
  constructor
  · intro h d
    obtain ⟨hnodup, hmem⟩ := h d ""
    refine ⟨hnodup, ?_⟩
    intro d'
    rw [view_refers]
    exact hmem d'
  · intro h d artifactType
    by_cases htype : artifactType = ""
    · subst htype
      refine ⟨(h d).1, ?_⟩
      intro d'
      rw [← view_refers]
      exact (h d).2 d'
    · unfold getReferrers
      simp only [if_neg htype]
      refine ⟨(h d).1.sublist ((filter_sublist).map _), ?_⟩
      intro d'
      simp only [mem_map, mem_filter, decide_eq_true_eq]
      constructor
      · rintro ⟨desc, ⟨hdesc, hdtype⟩, rfl⟩
        obtain ⟨d', r, hrow, hsubject, rfl⟩ := (Pair.Lists.mem_iff hwf h).mp hdesc
        obtain ⟨m, hm, rfl⟩ := Option.map_eq_some_iff.mp hrow
        exact ⟨m, hm, hsubject, fun _ => hdtype⟩
      · rintro ⟨m, hm, hsubject, hmtype⟩
        refine ⟨cfg.descriptor m.mediaType d' m.rawJSON, ⟨?_, hmtype htype⟩, rfl⟩
        apply (Pair.Lists.mem_iff hwf h).mpr
        exact ⟨d', (m.mediaType, m.rawJSON), by simp [view, hm], hsubject, rfl⟩

theorem wf_step (hwf : (view repo s).Wf (schema cfg)) (a : Action) :
    (view repo (step cfg repo s a)).Wf (schema cfg) := by
  cases a with
  | putManifest now reference mediaType rawJSON refused =>
    show (view repo (putManifest cfg repo s now reference mediaType rawJSON refused).2).Wf _
    rcases view_putManifest cfg repo s now reference mediaType rawJSON refused
      with ⟨_, hview⟩ | ⟨_, hsame⟩
    · rw [hview]
      exact Pair.wf_put hwf
    · rwa [hsame]
  | deleteManifest reference =>
    show (view repo (deleteManifest repo s reference)).Wf _
    by_cases hre : matchesDigestRE reference = true
    · rw [view_deleteManifest s hre]
      exact Pair.wf_delete hwf
    · rwa [view_deleteManifest_tag s hre]

theorem exact_step_iff (hwf : (view repo s).Wf (schema cfg)) (h : Exact cfg repo s) (a : Action) :
    Exact cfg repo (step cfg repo s a) ↔ Keeps cfg repo s a := by
  have hlists := (exact_iff hwf).mp h
  rw [exact_iff (wf_step hwf a)]
  cases a with
  | putManifest now reference mediaType rawJSON refused =>
    show (view repo (putManifest cfg repo s now reference mediaType rawJSON refused).2).Lists _ ↔ _
    rcases view_putManifest cfg repo s now reference mediaType rawJSON refused
      with ⟨hok, hview⟩ | ⟨hfail, hsame⟩
    · rw [hview, Pair.lists_put_iff hwf hlists]
      unfold Keeps
      simp only [hok, forall_const, view, Option.map_eq_some_iff]
      apply and_congr Iff.rfl
      constructor
      · intro hold m d hm hsubject
        exact hold (m.mediaType, m.rawJSON) d ⟨m, hm, rfl⟩ hsubject
      · rintro hold _ d ⟨m, hm, rfl⟩ hsubject
        exact hold m d hm hsubject
    · rw [hsame]
      unfold Keeps
      simp [hfail, hlists]
  | deleteManifest reference =>
    show (view repo (deleteManifest repo s reference)).Lists _ ↔ _
    unfold Keeps
    by_cases hre : matchesDigestRE reference = true
    · rw [view_deleteManifest s hre, Pair.lists_delete_iff hlists]
      simp only [hre, forall_const, view_refers]
      constructor
      · intro hnone m hm
        cases hsubject : cfg.subject m.rawJSON with
        | none => rfl
        | some d => exact absurd ⟨m, hm, hsubject, fun h => absurd rfl h⟩ (hnone d)
      · rintro hnone d ⟨m, hm, hsubject, _⟩
        rw [hnone m hm] at hsubject
        cases hsubject
    · rw [view_deleteManifest_tag s hre]
      simp [hre, hlists]

def fresh (organizations : Organizations) (repositories : Repositories) : State :=
  ⟨.fresh organizations repositories, fun _ => []⟩

theorem fresh_wf (organizations : Organizations) (repositories : Repositories) :
    (view repo (fresh organizations repositories)).Wf (schema cfg) where
  entered := by
    intro d r s hrow
    cases hrow
  indexed := by
    intro s e he
    cases he

theorem fresh_exact (organizations : Organizations) (repositories : Repositories) :
    Exact cfg repo (fresh organizations repositories) := by
  apply (exact_iff (fresh_wf organizations repositories)).mpr
  intro d
  refine ⟨nodup_nil, ?_⟩
  intro d'
  apply iff_of_false
  · intro hmem
    cases hmem
  · rintro ⟨r, hrow, _⟩
    cases hrow

/-- **When referrers are live.** -/
theorem referrers_live_iff (cfg : Config) (repo : Repo) (organizations : Organizations)
    (repositories : Repositories) (acts : List Action) :
    (∀ soon rest, acts = soon ++ rest →
        Exact cfg repo (run (step cfg repo) (fresh organizations repositories) soon)) ↔
      Guarded (step cfg repo) (Keeps cfg repo) (fresh organizations repositories) acts :=
  invariant_along_iff (W := fun s => (view repo s).Wf (schema cfg)) (fun _ a hwf => wf_step hwf a)
    (fun _ a hwf h => exact_step_iff hwf h a) (fresh_wf organizations repositories)
    (fresh_exact organizations repositories)

def sampleBody : Bytes :=
  stringBytes "\x7b\"subject\":\x7b\"digest\":\"sha256:" ++
    List.replicate 64 97 ++ stringBytes "\"\x7d\x7d"

def sampleSubject : String := "sha256:" ++ String.ofList (List.replicate 64 'a')

def sampleConfig : Config where
  docs := indexDocuments
  fields rawJSON :=
    if rawJSON = sampleBody then some ⟨some ⟨"", sampleSubject, 0⟩, "", none, []⟩ else none

def sampleRepo : Repo := ⟨"t", "r", "acme/app"⟩

def sampleState : State :=
  fresh ⟨[], nodup_nil⟩ (.single ⟨"r", "o", "t", "app", false, 0, 0⟩)

def push (mediaType : String) : Action := .putManifest 0 "v1" mediaType sampleBody false

def pushedAndDeleted : List Action :=
  [push mediaTypeOCIManifest, .deleteManifest (digestOf sampleBody)]

def pushedTwice : List Action := [push mediaTypeOCIManifest, push mediaTypeOCIIndex]

def listedAfter (acts : List Action) : List String :=
  (getReferrers sampleRepo (run (step sampleConfig sampleRepo) sampleState acts)
    sampleSubject "").1.map (·.digest)

theorem referrers_left_behind :
    (listedAfter pushedAndDeleted = [digestOf sampleBody] ∧ ¬ Exact sampleConfig sampleRepo
        (run (step sampleConfig sampleRepo) sampleState pushedAndDeleted)) ∧
    (listedAfter pushedTwice = [digestOf sampleBody, digestOf sampleBody] ∧
      ¬ Exact sampleConfig sampleRepo
        (run (step sampleConfig sampleRepo) sampleState pushedTwice)) := by
  have hdeleted : listedAfter pushedAndDeleted = [digestOf sampleBody] ∧
      (run (step sampleConfig sampleRepo) sampleState pushedAndDeleted).store.manifestRow
        "t" "r" (digestOf sampleBody) = none := by decide +kernel
  have htwice : listedAfter pushedTwice = [digestOf sampleBody, digestOf sampleBody] := by
    decide +kernel
  refine ⟨⟨hdeleted.1, ?_⟩, htwice, ?_⟩
  · intro hexact
    have hmem : digestOf sampleBody ∈ listedAfter pushedAndDeleted := by simp [hdeleted.1]
    obtain ⟨m, hm, _⟩ := ((hexact sampleSubject "").2 _).mp hmem
    cases hdeleted.2.symm.trans hm
  · intro hexact
    have hnodup : (listedAfter pushedTwice).Nodup := (hexact sampleSubject "").1
    rw [htwice] at hnodup
    simp at hnodup

end OciJanus.Core.Referrers
