import OciJanus.Verified.Framing
import OciJanus.Verified.Json
import OciJanus.Verified.Rfc3339

/-!
# The hash chain primitives of `audit_events`

A payload determines every hashed column (`sameContent_of_payload_eq`).
-/

namespace OciJanus.Audit.HashChain

open Verified Sha256 Framing Utf8 Json Rfc3339

abbrev UUID := Vector UInt8 16

def UUID.nil : UUID := Vector.replicate 16 0

def UUID.marshalBinary (u : UUID) : Bytes := u.toList

theorem UUID.marshalBinary_injective : Function.Injective UUID.marshalBinary := by
  intro u v h
  exact Vector.toList_inj.mp h

structure AuditEvent where
  (id tenantID : UUID)
  (actorID actorType actorIP action resource outcome : String)
  metadata : Option Bytes
  occurredAt : Time
  deriving DecidableEq

def chainFrameVersion : Nat := 1

def genesisPrevHash : Bytes := [0x00]

def metadataText (e : AuditEvent) : Bytes :=
  let text := e.metadata.getD []
  if text.length = 0 then stringBytes "\x7b\x7d" else text

def hashedFields (e : AuditEvent) : Option (List Bytes) := do
  let canonMeta ← canonicaliseJSON (metadataText e)
  return [ e.id.marshalBinary, e.tenantID.marshalBinary
         , stringBytes e.actorID, stringBytes e.actorType
         , stringBytes e.actorIP, stringBytes e.action
         , stringBytes e.resource, stringBytes e.outcome
         , canonMeta
         , utf8 (formatRFC3339Nano (truncateMicro e.occurredAt)) ]

def canonicalPayload (e : AuditEvent) : Option Bytes := do
  let fields ← hashedFields e
  return bigEndian 4 chainFrameVersion ++ frames fields

def canonicalRowBytes (e : AuditEvent) : Option Bytes := do
  let payload ← canonicalPayload e
  return sha256 payload

def chainMessage (prev canon : Bytes) : Bytes := frame prev ++ frame canon

def computeRowHash (prev : Bytes) (e : AuditEvent) : Option Bytes := do
  let canon ← canonicalRowBytes e
  return sha256 (chainMessage prev canon)

def fnv64a (bs : Bytes) : UInt64 :=
  bs.foldl (fun h b => (h ^^^ b.toUInt64) * 1099511628211) 14695981039346656037

def tenantAdvisoryLockKey (tenantID : UUID) : Int64 :=
  (fnv64a tenantID.marshalBinary).toInt64

def ValidMetadata (e : AuditEvent) : Prop := (decode (metadataText e)).isSome

instance (e : AuditEvent) : Decidable (ValidMetadata e) :=
  inferInstanceAs (Decidable ((decode (metadataText e)).isSome = true))

def hashInputs (prev : Bytes) (e : AuditEvent) : List Bytes :=
  match canonicalPayload e with
  | none => []
  | some payload => [payload, chainMessage prev (sha256 payload)]

variable {prev h : Bytes} {e f : AuditEvent}

theorem computeRowHash_eq (hh : computeRowHash prev e = some h) :
    ∃ payload, canonicalPayload e = some payload ∧
      h = sha256 (chainMessage prev (sha256 payload)) := by
  unfold computeRowHash canonicalRowBytes at hh
  cases hp : canonicalPayload e with
  | none => simp [hp] at hh
  | some payload =>
    refine ⟨payload, rfl, ?_⟩
    simpa [hp] using hh.symm

theorem computeRowHash_of_payload {payload : Bytes}
    (hp : canonicalPayload e = some payload) (prev : Bytes) :
    computeRowHash prev e = some (sha256 (chainMessage prev (sha256 payload))) := by
  simp [computeRowHash, canonicalRowBytes, hp]

theorem computeRowHash_isSome (h : ValidMetadata e)
    (prev : Bytes) : ∃ hash, computeRowHash prev e = some hash := by
  have hcanon := (canonicaliseJSON_isSome_iff (metadataText e)).mpr h
  obtain ⟨canon, hcanon⟩ := Option.isSome_iff_exists.mp hcanon
  exact ⟨_, computeRowHash_of_payload (by simp [canonicalPayload, hashedFields, hcanon]; rfl) prev⟩

theorem validMetadata_of_computeRowHash
    (hh : computeRowHash prev e = some h) : ValidMetadata e := by
  obtain ⟨payload, hp, -⟩ := computeRowHash_eq hh
  obtain ⟨fields, hf, -⟩ := Option.bind_eq_some_iff.mp hp
  obtain ⟨canon, hc, -⟩ := Option.bind_eq_some_iff.mp hf
  exact (canonicaliseJSON_isSome_iff _).mp (hc ▸ rfl)

theorem computeRowHash_length (hh : computeRowHash prev e = some h) : h.length = 32 := by
  obtain ⟨payload, -, rfl⟩ := computeRowHash_eq hh
  exact sha256_length _

theorem computeRowHash_ne_genesis : computeRowHash prev e ≠ some genesisPrevHash := by
  intro h
  have := computeRowHash_length h
  simp [genesisPrevHash] at this

theorem chainMessage_inj {prev' canon canon' : Bytes}
    (hc : canon.length = 32) (hc' : canon'.length = 32)
    (h : chainMessage prev canon = chainMessage prev' canon') : prev = prev' ∧ canon = canon' := by
  have hlen := congrArg List.length h
  simp only [chainMessage, frame, List.length_append, bigEndian_length] at hlen
  have hprev : prev.length = prev'.length := by omega
  simp only [chainMessage, frame, List.append_assoc] at h
  obtain ⟨-, htail⟩ := List.append_inj h (by simp)
  obtain ⟨rfl, hrest⟩ := List.append_inj htail hprev
  exact ⟨rfl, (List.append_inj hrest (by simp)).2⟩

structure SameContent (e f : AuditEvent) : Prop where
  id : e.id = f.id
  tenantID : e.tenantID = f.tenantID
  actorID : e.actorID = f.actorID
  actorType : e.actorType = f.actorType
  actorIP : e.actorIP = f.actorIP
  action : e.action = f.action
  resource : e.resource = f.resource
  outcome : e.outcome = f.outcome
  metadata : decode (metadataText e) = decode (metadataText f)
  occurredAt : truncateMicro e.occurredAt = truncateMicro f.occurredAt

def FieldsFramed (e : AuditEvent) : Prop :=
  ∀ fields ∈ hashedFields e, ∀ b ∈ fields, Framed b

instance (e : AuditEvent) : Decidable (FieldsFramed e) :=
  inferInstanceAs (Decidable (∀ fields ∈ hashedFields e, ∀ b ∈ fields, Framed b))

theorem sameContent_of_fields_eq {fields : List Bytes}
    (he : hashedFields e = some fields) (hf : hashedFields f = some fields) : SameContent e f := by
  unfold hashedFields at he hf
  obtain ⟨me, hme, he⟩ := Option.bind_eq_some_iff.mp he
  obtain ⟨mf, hmf, hf⟩ := Option.bind_eq_some_iff.mp hf
  have heq := he.trans hf.symm
  simp only [pure, Option.some.injEq, List.cons.injEq, and_true] at heq
  obtain ⟨hid, htenant, hactor, htype, hip, haction, hres, hout, hmeta, htime⟩ := heq
  subst hmeta
  exact ⟨UUID.marshalBinary_injective hid, UUID.marshalBinary_injective htenant,
    stringBytes_injective hactor, stringBytes_injective htype,
    stringBytes_injective hip, stringBytes_injective haction,
    stringBytes_injective hres, stringBytes_injective hout,
    canonicaliseJSON_inj hme hmf,
    formatRFC3339Nano_injective (utf8_injective htime)⟩

theorem sameContent_of_payload_eq {payload : Bytes} (he : FieldsFramed e) (hf : FieldsFramed f)
    (hpe : canonicalPayload e = some payload)
    (hpf : canonicalPayload f = some payload) : SameContent e f := by
  obtain ⟨fe, hfe, hpe⟩ := Option.bind_eq_some_iff.mp hpe
  obtain ⟨ff, hff, hpf⟩ := Option.bind_eq_some_iff.mp hpf
  have heq := hpe.trans hpf.symm
  simp only [pure, Option.some.injEq, List.append_cancel_left_eq] at heq
  have hfields : fe = ff := frames_inj (he fe hfe) (hf ff hff) heq
  subst hfields
  exact sameContent_of_fields_eq hfe hff

theorem computeRowHash_inj {prev' : Bytes}
    (hcoll : NoCollision {m | m ∈ hashInputs prev e ∨ m ∈ hashInputs prev' f})
    (he : computeRowHash prev e = some h) (hf : computeRowHash prev' f = some h) :
    prev = prev' ∧ canonicalPayload e = canonicalPayload f := by
  obtain ⟨pe, hpe, rfl⟩ := computeRowHash_eq he
  obtain ⟨pf, hpf, heq⟩ := computeRowHash_eq hf
  have hmsg : chainMessage prev (sha256 pe) = chainMessage prev' (sha256 pf) :=
    hcoll.eq (.inl (by simp [hashInputs, hpe])) (.inr (by simp [hashInputs, hpf])) heq
  obtain ⟨hprev, hcanon⟩ := chainMessage_inj (sha256_length _) (sha256_length _) hmsg
  have hpayload : pe = pf := hcoll.eq (.inl (by simp [hashInputs, hpe]))
    (.inr (by simp [hashInputs, hpf])) hcanon
  exact ⟨hprev, by rw [hpe, hpf, hpayload]⟩

end OciJanus.Audit.HashChain
