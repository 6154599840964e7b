import OciJanus.Metadata.Tables
import OciJanus.Verified.MachineInt

/-!
# The sizes of images

The sizes in a document are the client's, read and added as signed 64-bit integers. `Sound`: the
exact total is neither negative nor too large.
-/

namespace OciJanus.Metadata.ImageSize

open Verified KeyedTable MachineInt Sha256 Metadata List

structure ImageDoc where
  config : Option Int
  (layers manifests : List Int)

structure ManifestReader where
  manifestDigests : Bytes → Option (List String)
  imageDoc : Bytes → Option ImageDoc
  manifestDigests_nil : manifestDigests [] = none
  imageDoc_nil : imageDoc [] = none

namespace ImageDoc

variable (doc : ImageDoc)

def entries : List Int :=
  if doc.layers.take maxManifestEntries = [] then doc.manifests.take maxManifestEntries
  else doc.layers.take maxManifestEntries

def total : Int := doc.config.getD 0 + exactSum doc.entries

def declared : Int := doc.config.getD 0 + exactSum (doc.layers.take maxManifestEntries)

def fits : Bool :=
  doc.config.all (fun v => Fits v) && doc.layers.all (fun v => Fits v) &&
    doc.manifests.all fun v => Fits v

end ImageDoc

def parseImageSize (imageDoc : Bytes → Option ImageDoc) (rawJSON : Bytes) : Int :=
  if rawJSON = [] then 0
  else
    match (imageDoc rawJSON).filter ImageDoc.fits with
    | none => 0
    | some doc =>
      let layers := doc.layers.take maxManifestEntries
      let manifests := doc.manifests.take maxManifestEntries
      let total := (doc.config.map fun size => int64 (0 + size)).getD 0
      let total := accumulate total layers
      if layers = [] then accumulate total manifests else total

def ManifestReader.docs (reader : ManifestReader) : Documents where
  manifestDigests := reader.manifestDigests
  imageSize := parseImageSize reader.imageDoc
  manifestDigests_nil := reader.manifestDigests_nil

def ManifestReader.declared (reader : ManifestReader) (rawJSON : Bytes) : Int :=
  ((reader.imageDoc rawJSON).map ImageDoc.declared).getD 0

def ManifestReader.Sound (reader : ManifestReader) (rawJSON : Bytes) : Prop :=
  ∀ doc ∈ reader.imageDoc rawJSON, doc.fits = true ∧ 0 ≤ doc.total ∧ Fits doc.total
  deriving Decidable

def ManifestReader.NonIndex (reader : ManifestReader) (mediaType : String) (rawJSON : Bytes) :
    Prop :=
  mediaType ≠ mediaTypeOCIIndex ∧ mediaType ≠ mediaTypeDockerManifestList ∧
    ∀ doc ∈ reader.imageDoc rawJSON, doc.layers = [] → doc.manifests = []
  deriving Decidable

section Documents

variable {imageDoc : Bytes → Option ImageDoc} {rawJSON : Bytes} {doc : ImageDoc}

theorem parseImageSize_of_fits (hnil : imageDoc [] = none) (hdoc : imageDoc rawJSON = some doc)
    (hfits : doc.fits = true) : parseImageSize imageDoc rawJSON = int64 doc.total := by
  have hraw : rawJSON ≠ [] := by
    rintro rfl
    rw [hnil] at hdoc
    cases hdoc
  have hconfig : (doc.config.map fun size => int64 (0 + size)).getD 0 =
      int64 (doc.config.getD 0) := by
    cases doc.config with
    | none => rfl
    | some size => rw [Option.map_some, Option.getD_some, Option.getD_some, Int.zero_add]
  unfold parseImageSize
  rw [if_neg hraw, hdoc, Option.filter_some, if_pos hfits]
  simp only [hconfig, accumulate_eq]
  unfold ImageDoc.total ImageDoc.entries
  by_cases hlayers : doc.layers.take maxManifestEntries = []
  · rw [if_pos hlayers, if_pos hlayers, hlayers, exactSum_nil, Int.add_zero]
  · rw [if_neg hlayers, if_neg hlayers]

theorem parseImageSize_of_none (hdoc : imageDoc rawJSON = none) :
    parseImageSize imageDoc rawJSON = 0 := by
  unfold parseImageSize
  rw [hdoc, Option.filter_none, ite_self]

end Documents

section Reader

variable {reader : ManifestReader} {mediaType : String} {rawJSON : Bytes}

theorem ManifestReader.Sound.imageSize_eq (h : reader.Sound rawJSON) :
    reader.docs.imageSize rawJSON = ((reader.imageDoc rawJSON).map ImageDoc.total).getD 0 := by
  show parseImageSize reader.imageDoc rawJSON = _
  cases hdoc : reader.imageDoc rawJSON with
  | none => exact parseImageSize_of_none hdoc
  | some doc =>
    obtain ⟨hfits, _, htotal⟩ := h doc hdoc
    rw [parseImageSize_of_fits reader.imageDoc_nil hdoc hfits, int64_eq_self htotal]
    rfl

theorem ManifestReader.Sound.imageSize_nonneg (h : reader.Sound rawJSON) :
    0 ≤ reader.docs.imageSize rawJSON := by
  rw [h.imageSize_eq]
  cases hdoc : reader.imageDoc rawJSON with
  | none => exact Int.le_refl 0
  | some doc => exact (h doc hdoc).2.1

theorem ManifestReader.NonIndex.total_eq_declared (h : reader.NonIndex mediaType rawJSON)
    {doc : ImageDoc} (hdoc : reader.imageDoc rawJSON = some doc) : doc.total = doc.declared := by
  unfold ImageDoc.total ImageDoc.declared ImageDoc.entries
  by_cases hlayers : doc.layers.take maxManifestEntries = []
  · have hnil : doc.layers = [] :=
      (take_eq_nil_iff.mp hlayers).resolve_left (by decide)
    rw [if_pos hlayers, h.2.2 doc hdoc hnil, hnil]
  · rw [if_neg hlayers]

theorem ManifestReader.Sound.imageSize_eq_declared (h : reader.Sound rawJSON)
    (hplain : reader.NonIndex mediaType rawJSON) :
    reader.docs.imageSize rawJSON = reader.declared rawJSON := by
  rw [h.imageSize_eq, ManifestReader.declared]
  cases hdoc : reader.imageDoc rawJSON with
  | none => rfl
  | some doc => exact hplain.total_eq_declared hdoc

theorem ManifestReader.NonIndex.children (h : reader.NonIndex mediaType rawJSON) :
    parseChildManifestDigests reader.docs rawJSON mediaType = [] := by
  unfold parseChildManifestDigests
  rw [if_neg]
  rintro (hindex | hlist)
  · exact h.1 hindex
  · exact h.2.1 hlist

end Reader

def putManifest (docs : Documents) (s : Store) (now : Int)
    (tenantID repoID digest mediaType : String) (rawJSON : Bytes) : Except RepoError Store :=
  match s.putManifest docs now tenantID repoID digest mediaType rawJSON with
  | .error e => .error e
  | .ok s' =>
    if (s'.manifests.get (repoID, digest)).all fun m => Fits m.imageSizeBytes then .ok s'
    else .error .internal

def usedBytes (s : Store) (tenantID : String) : Int :=
  exactSum ((s.manifests.rows.filter fun m => m.tenantID = tenantID).map (·.imageSizeBytes))

def NonNegative (s : Store) : Prop := ∀ m ∈ s.manifests.rows, 0 ≤ m.imageSizeBytes
  deriving Decidable

theorem NonNegative.usedBytes {s : Store} (h : NonNegative s) (tenantID : String) :
    0 ≤ usedBytes s tenantID := by
  refine exactSum_nonneg fun size hsize => ?_
  obtain ⟨m, hm, rfl⟩ := mem_map.mp hsize
  exact h m (mem_filter.mp hm).1

section Writes

variable {docs : Documents} {s s' : Store} {now : Int}
  {tenantID repoID digest mediaType : String} {rawJSON : Bytes}

theorem putManifest_ok (h : putManifest docs s now tenantID repoID digest mediaType rawJSON =
    .ok s') : s.putManifest docs now tenantID repoID digest mediaType rawJSON = .ok s' := by
  unfold putManifest at h
  split at h
  · cases h
  · rename_i written hok
    split_ifs at h
    cases h
    exact hok

theorem putManifest_written (h : putManifest docs s now tenantID repoID digest mediaType rawJSON =
    .ok s') : ∃ hrepo, s' = s.writeManifest docs now tenantID repoID digest mediaType rawJSON
      hrepo := by
  have hok := putManifest_ok h
  unfold Store.putManifest at hok
  split_ifs at hok with hrepo
  dsimp only at hok
  split at hok
  · split_ifs at hok
    cases hok
    exact ⟨hrepo, rfl⟩
  · cases hok

theorem NonNegative.upsertManifest (hs : NonNegative s) {row : Manifest}
    (hrepo : s.repositories.get row.repoID ≠ none) (hrow : 0 ≤ row.imageSizeBytes) :
    NonNegative (s.upsertManifest row hrepo) := by
  intro m hm
  rcases Table.mem_upsert hm with hm | rfl | ⟨old, _, _, rfl⟩
  · exact hs m hm
  · exact hrow
  · exact hrow

theorem NonNegative.recalcImageSize (hs : NonNegative s) (children : List String) :
    NonNegative (s.recalcImageSize tenantID repoID digest children) := by
  have hsum : 0 ≤ exactSum ((s.manifests.rows.filter fun m =>
      m.tenantID = tenantID ∧ m.digest ∈ children).map (·.imageSizeBytes)) := by
    refine exactSum_nonneg fun size hsize => ?_
    obtain ⟨m, hm, rfl⟩ := mem_map.mp hsize
    exact hs m (mem_filter.mp hm).1
  intro m hm
  obtain ⟨old, hold, rfl⟩ := mem_map.mp hm
  unfold Store.setImageSize
  split_ifs
  · exact hsum
  · exact hs old hold

theorem NonNegative.putManifest (hs : NonNegative s) (hsize : 0 ≤ docs.imageSize rawJSON)
    (h : putManifest docs s now tenantID repoID digest mediaType rawJSON = .ok s') :
    NonNegative s' := by
  obtain ⟨hrepo, rfl⟩ := putManifest_written h
  have hupsert : NonNegative (s.upsertManifest
      (s.newManifest docs now tenantID repoID digest mediaType rawJSON) hrepo) :=
    hs.upsertManifest hrepo hsize
  unfold Store.writeManifest
  by_cases hchildren : parseChildManifestDigests docs rawJSON mediaType = []
  · rw [if_pos hchildren]
    exact hupsert
  · rw [if_neg hchildren]
    exact NonNegative.recalcImageSize hupsert _

theorem putManifest_imageSize (hchildren : parseChildManifestDigests docs rawJSON mediaType = [])
    (h : putManifest docs s now tenantID repoID digest mediaType rawJSON = .ok s') :
    ∃ m, s'.manifests.get (repoID, digest) = some m ∧
      m.imageSizeBytes = docs.imageSize rawJSON := by
  obtain ⟨hrepo, rfl⟩ := putManifest_written h
  unfold Store.writeManifest
  rw [if_pos hchildren]
  refine ⟨_, s.upsertManifest_get
    (s.newManifest docs now tenantID repoID digest mediaType rawJSON) hrepo, ?_⟩
  cases s.manifests.get ((s.newManifest docs now tenantID repoID digest mediaType rawJSON).repoID,
      (s.newManifest docs now tenantID repoID digest mediaType rawJSON).digest) with
  | none => rfl
  | some old => rfl

theorem usedBytes_putManifest (hnew : s.manifests.get (repoID, digest) = none)
    (h : putManifest docs s now tenantID repoID digest mediaType rawJSON = .ok s') :
    ∃ m, s'.manifests.get (repoID, digest) = some m ∧ m.tenantID = tenantID ∧
      ∀ t, usedBytes s' t = (if t = tenantID then m.imageSizeBytes else 0) + usedBytes s t := by
  have heffect := Store.putManifest_ok (putManifest_ok h)
  obtain ⟨m, hm, htenant, _⟩ := heffect.row
  have hkey : (m.repoID, m.digest) = (repoID, digest) :=
    Prod.ext (Store.manifests_get_key hm).1 (Store.manifests_get_key hm).2
  have hperm : s'.manifests.rows.Perm (m :: s.manifests.rows) := by
    refine Table.perm_cons ?_ ?_ ?_
    · rw [hkey, hnew]
    · rw [hkey, hm]
    · intro k hk
      rw [hkey] at hk
      exact heffect.others k hk
  refine ⟨m, hm, htenant, fun t => ?_⟩
  unfold usedBytes
  rw [exactSum_perm ((hperm.filter _).map _), filter_cons, htenant]
  by_cases ht : tenantID = t
  · rw [if_pos (decide_eq_true ht), if_pos ht.symm, map_cons, exactSum_cons]
  · rw [if_neg (by simpa using ht), if_neg (Ne.symm ht), Int.zero_add]

end Writes

end OciJanus.Metadata.ImageSize
