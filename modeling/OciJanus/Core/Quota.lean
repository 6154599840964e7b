import OciJanus.Core.UploadHandlers
import OciJanus.Metadata.ImageSize

/-!
# The quota of a tenant

`CheckQuota` adds as 64-bit integers do, fails open, and is cached for ten seconds.
-/

namespace OciJanus.Core.Quota

open Core.Upload (digestOf)
open Core.UploadHandlers (checkQuota)
open Verified KeyedTable MachineInt Run Sha256 Utf8 Metadata Metadata.ImageSize

/-- The tables, the quotas, and the usage as registry-core has cached it. -/
structure State where
  store : Store
  quotas : String → Option Int
  now : Int
  usageCache : ExpiringStore.Store String (Int × Int)

inductive Action where
  | putManifest (tenantID repoID mediaType : String) (rawJSON : Bytes) (lost : Bool)
  | checkQuota (tenantID : String) (uploadSize : Int) (lost : Bool)
  | tick (elapsed : Nat)

def usageTTL : Int := 10 * 1000000000

section Steps

variable (reader : ManifestReader) (s : State)

def getTenantQuotaUsage (tenantID : String) : Option (Int × Int) :=
  match s.quotas tenantID with
  | none => none
  | some quota =>
    if Fits (usedBytes s.store tenantID) then some (usedBytes s.store tenantID, quota) else none

def quotaUsage (tenantID : String) (lost : Bool) : Option (Int × Int) × State :=
  if lost then (none, s)
  else
    let read :=
      s.usageCache.readThrough s.now tenantID usageTTL (getTenantQuotaUsage s tenantID)
    (read.1, { s with usageCache := read.2 })

def pushed (tenantID repoID mediaType : String) (rawJSON : Bytes) (lost : Bool) : Option Store :=
  if checkQuota (quotaUsage s tenantID lost).1 rawJSON.length then
    (putManifest reader.docs s.store s.now tenantID repoID (digestOf rawJSON) mediaType
      rawJSON).toOption
  else none

def step : Action → State
  | .putManifest tenantID repoID mediaType rawJSON lost =>
    { (quotaUsage s tenantID lost).2 with
      store := (pushed reader s tenantID repoID mediaType rawJSON lost).getD s.store }
  | .checkQuota tenantID _ lost => (quotaUsage s tenantID lost).2
  | .tick elapsed => { s with now := s.now + elapsed }

def Answered (tenantID : String) (lost : Bool) : Prop :=
  ∃ quota ∈ s.quotas tenantID,
    (quotaUsage s tenantID lost).1 = some (usedBytes s.store tenantID, quota)

def Honest : Action → Prop
  | .putManifest _ _ _ rawJSON _ => reader.Sound rawJSON
  | .checkQuota tenantID uploadSize lost =>
    Answered s tenantID lost ∧ usedBytes s.store tenantID + uploadSize ≤ 9223372036854775807
  | .tick _ => True

def Upheld : Action → Prop
  | .putManifest tenantID repoID mediaType rawJSON lost =>
    (s.store.manifests.get (repoID, digestOf rawJSON) = none → ∀ t, usedBytes s.store t ≤
      usedBytes (step reader s (.putManifest tenantID repoID mediaType rawJSON lost)).store t) ∧
    (reader.NonIndex mediaType rawJSON →
      ∀ s' ∈ pushed reader s tenantID repoID mediaType rawJSON lost,
        ∃ m ∈ s'.manifests.get (repoID, digestOf rawJSON),
          m.imageSizeBytes = reader.declared rawJSON)
  | .checkQuota tenantID uploadSize lost =>
    0 ≤ uploadSize → checkQuota (quotaUsage s tenantID lost).1 uploadSize = true →
      ∃ quota ∈ s.quotas tenantID, usedBytes s.store tenantID + uploadSize ≤ quota
  | .tick _ => True

end Steps

section Upheld

variable {reader : ManifestReader} {s : State}

deriving instance Decidable for Answered

instance : ∀ a, Decidable (Honest reader s a)
  | .putManifest _ _ _ rawJSON _ => inferInstanceAs (Decidable (reader.Sound rawJSON))
  | .checkQuota tenantID uploadSize lost =>
    inferInstanceAs (Decidable (Answered s tenantID lost ∧
      usedBytes s.store tenantID + uploadSize ≤ 9223372036854775807))
  | .tick _ => inferInstanceAs (Decidable True)

theorem quotaUsage_store (tenantID : String) (lost : Bool) :
    (quotaUsage s tenantID lost).2.store = s.store := by
  cases lost <;> rfl

theorem pushed_eq_some {tenantID repoID mediaType : String} {rawJSON : Bytes} {lost : Bool}
    {s' : Store} (h : pushed reader s tenantID repoID mediaType rawJSON lost = some s') :
    putManifest reader.docs s.store s.now tenantID repoID (digestOf rawJSON) mediaType rawJSON =
      .ok s' := by
  unfold pushed at h
  split_ifs at h
  cases hput : putManifest reader.docs s.store s.now tenantID repoID (digestOf rawJSON) mediaType
      rawJSON with
  | error e =>
    rw [hput] at h
    cases h
  | ok written =>
    rw [hput] at h
    cases h
    rfl

theorem nonNegative_step {a : Action} (hs : NonNegative s.store) (h : Honest reader s a) :
    NonNegative (step reader s a).store := by
  cases a with
  | putManifest tenantID repoID mediaType rawJSON lost =>
    have hsound : reader.Sound rawJSON := h
    show NonNegative ((pushed reader s tenantID repoID mediaType rawJSON lost).getD s.store)
    cases hpush : pushed reader s tenantID repoID mediaType rawJSON lost with
    | none => exact hs
    | some s' => exact hs.putManifest hsound.imageSize_nonneg (pushed_eq_some hpush)
  | checkQuota tenantID uploadSize lost =>
    show NonNegative (quotaUsage s tenantID lost).2.store
    rw [quotaUsage_store]
    exact hs
  | tick elapsed => exact hs

theorem usedBytes_le_push {tenantID repoID mediaType : String} {rawJSON : Bytes} {lost : Bool}
    (hs : NonNegative s.store) (hsound : reader.Sound rawJSON)
    (hnew : s.store.manifests.get (repoID, digestOf rawJSON) = none) (t : String) :
    usedBytes s.store t ≤
      usedBytes (step reader s (.putManifest tenantID repoID mediaType rawJSON lost)).store t := by
  show _ ≤ usedBytes ((pushed reader s tenantID repoID mediaType rawJSON lost).getD s.store) t
  cases hpush : pushed reader s tenantID repoID mediaType rawJSON lost with
  | none => exact Int.le_refl _
  | some s' =>
    have hput := pushed_eq_some hpush
    obtain ⟨m, hm, _, hused⟩ := usedBytes_putManifest hnew hput
    have hsize : 0 ≤ m.imageSizeBytes :=
      hs.putManifest hsound.imageSize_nonneg hput m (Table.mem_of_get hm)
    rw [Option.getD_some, hused t]
    split_ifs
    · omega
    · omega

theorem le_quota_of_checkQuota {used quota uploadSize : Int} (hused : 0 ≤ used)
    (hsize : 0 ≤ uploadSize) (hfits : used + uploadSize ≤ 9223372036854775807)
    (h : checkQuota (some (used, quota)) uploadSize = true) : used + uploadSize ≤ quota := by
  have hadd : int64 (used + uploadSize) = used + uploadSize := by
    refine int64_eq_self ⟨?_, hfits⟩
    omega
  simpa [checkQuota, hadd] using h

theorem upheld_of_honest {a : Action} (hs : NonNegative s.store) (h : Honest reader s a) :
    Upheld reader s a := by
  cases a with
  | putManifest tenantID repoID mediaType rawJSON lost =>
    have hsound : reader.Sound rawJSON := h
    refine ⟨fun hnew t => usedBytes_le_push hs hsound hnew t, ?_⟩
    intro hplain s' hpush
    obtain ⟨m, hm, hsize⟩ := putManifest_imageSize hplain.children (pushed_eq_some hpush)
    exact ⟨m, hm, hsize.trans (hsound.imageSize_eq_declared hplain)⟩
  | checkQuota tenantID uploadSize lost =>
    obtain ⟨⟨quota, hquota, hanswer⟩, hfits⟩ := h
    intro hsize haccept
    rw [hanswer] at haccept
    exact ⟨quota, hquota, le_quota_of_checkQuota (hs.usedBytes tenantID) hsize hfits haccept⟩
  | tick elapsed => trivial

end Upheld

/-- **Sound documents do not cheat the quota.** -/
theorem quota_upheld (reader : ManifestReader) {s : State} (hs : NonNegative s.store)
    {acts : List Action} (hG : Guarded (step reader) (Honest reader) s acts) :
    Guarded (step reader) (Upheld reader) s acts ∧ ∀ soon rest, acts = soon ++ rest →
        ∀ t, 0 ≤ usedBytes (run (step reader) s soon).store t := by
  constructor
  · exact guarded_of_invariant (I := fun s => NonNegative s.store)
      (fun _ _ hs h => ⟨nonNegative_step hs h, upheld_of_honest hs h⟩) hs hG
  · rintro soon rest rfl t
    have hsoon : NonNegative (run (step reader) s soon).store :=
      run_invariant (I := fun s => NonNegative s.store) (fun _ _ hs h => nonNegative_step hs h) hs
        (guarded_append.mp hG).1
    exact hsoon.usedBytes t

def oversized : Bytes := stringBytes
  "\x7b\"config\":\x7b\"size\":9223372036854775807\x7d,\"layers\":[\x7b\"size\":1\x7d]\x7d"

def tiny : Bytes := stringBytes "\x7b\"config\":\x7b\"size\":1\x7d\x7d"

def sizesOf (rawJSON : Bytes) : Option ImageDoc :=
  if rawJSON = oversized then some ⟨some 9223372036854775807, [1], []⟩
  else if rawJSON = tiny then some ⟨some 1, [], []⟩
  else none

theorem sizesOf_nil : sizesOf [] = none := by decide +kernel

def sampleReader : ManifestReader := ⟨fun _ => none, sizesOf, rfl, sizesOf_nil⟩

def start : State where
  store := Store.fresh (.single ⟨"o", "t", "acme"⟩) (.single ⟨"r", "o", "t", "app", false, 0, 0⟩)
  quotas := fun t => if t = "t" then some 107374182400 else none
  now := 0
  usageCache := .empty

def push (rawJSON : Bytes) : Action := .putManifest "t" "r" mediaTypeOCIManifest rawJSON false

theorem quota_upheld_one_image :
    Guarded (step sampleReader) (Upheld sampleReader) start
        [push tiny, .tick 10000000000, .checkQuota "t" 107374182399 false] ∧
      ∀ soon rest, [push tiny, .tick 10000000000, .checkQuota "t" 107374182399 false] =
        soon ++ rest → ∀ t, 0 ≤ usedBytes (run (step sampleReader) start soon).store t :=
  quota_upheld sampleReader (by decide +kernel) (by decide +kernel)

theorem quota_cheated :
    usedBytes start.store "t" = 0 ∧
    usedBytes (step sampleReader start (push oversized)).store "t" = -9223372036854775808 ∧
    sampleReader.NonIndex mediaTypeOCIManifest oversized ∧
    sampleReader.declared oversized = 9223372036854775808 ∧
    ((step sampleReader start (push oversized)).store.manifests.get
      ("r", digestOf oversized)).map (·.imageSizeBytes) = some (-9223372036854775808) ∧
    usedBytes (run (step sampleReader) start [push tiny, .tick 10000000000]).store "t" = 1 ∧
    start.quotas "t" = some 107374182400 ∧
    checkQuota (quotaUsage (run (step sampleReader) start [push tiny, .tick 10000000000])
      "t" false).1 9223372036854775807 = true := by
  decide +kernel

end OciJanus.Core.Quota
