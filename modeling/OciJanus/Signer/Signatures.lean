import OciJanus.Signer.Sigstore

/-!
# Signing and verifying in registry-signer

The raw signature is kept in the memory of the process that made it and has no column.
-/

namespace OciJanus.Signer.Signatures

open Verified.KeyedTable Verified.Run Signer.Sigstore Function

structure ActiveSigner where
  keyID : String
  signPayload : Nat → String → String → String → Except String String
  verifyPayload : String → String → String → String → Except String Bool
  signatureDigest : String → Except String String
  verify_signed : ∀ n tenant repo digest sig, signPayload n tenant repo digest = .ok sig →
    verifyPayload tenant repo digest sig = .ok true
  verify_empty : ∀ tenant repo digest, verifyPayload tenant repo digest "" = .ok false

inductive Code where
  | invalidArgument
  | alreadyExists
  | internal

structure Status where
  code : Code
  message : String

structure SignManifestRequest where
  (tenantID repositoryName manifestDigest signerID : String)

structure Signature where
  (signerID manifestDigest signatureDigest keyID : String)
  signedAt : Int

def signatureOf (rec : Record) : Signature :=
  ⟨rec.signerID, rec.manifestDigest, rec.signatureDigest, rec.keyID, rec.signedAt⟩

def ActiveSigner.signerOf (sg : ActiveSigner) (signerID : String) : String :=
  if signerID = "" then sg.keyID else signerID

structure Reach where
  (policy read write : Bool)

def signedRecord (sg : ActiveSigner) (now : Int) (req : SignManifestRequest) (sig digest : String) :
    Record :=
  { tenantID := req.tenantID
    signerID := sg.signerOf req.signerID
    manifestDigest := req.manifestDigest
    repositoryName := req.repositoryName
    signatureDigest := digest
    keyID := sg.keyID
    sigB64 := sig
    signedAt := now }

def signManifest (sg : ActiveSigner) (reach : Reach) (nonce : Nat) (now : Int) (db : Database)
    (c : Cache) (req : SignManifestRequest) : Except Status Signature × Cache × Database :=
  if req.tenantID = "" ∨ req.manifestDigest = "" ∨ req.repositoryName = "" then
    (.error ⟨.invalidArgument, "tenant_id, repository_name and manifest_digest are required"⟩,
      c, db)
  else
    match sg.signPayload nonce req.tenantID req.repositoryName req.manifestDigest with
    | .error e => (.error ⟨.internal, "sign: " ++ e⟩, c, db)
    | .ok sig =>
      match sg.signatureDigest sig with
      | .error e => (.error ⟨.internal, "signature digest: " ++ e⟩, c, db)
      | .ok digest =>
        let entry := signedRecord sg now req sig digest
        let existing := findRec reach.read db c entry.key entry.signerID
        if existing.1.isSome then
          (.error ⟨.alreadyExists, "manifest already signed by this signer"⟩, existing.2, db)
        else
          (.ok (signatureOf entry), add reach.write db existing.2 entry)

structure VerifyManifestRequest where
  (tenantID manifestDigest signerID : String)

structure VerifyManifestResponse where
  verified : Bool
  failureReason : String
  signature : Option Signature

def verifyRecord (sg : ActiveSigner) (req : VerifyManifestRequest) :
    Option Record → Except Status VerifyManifestResponse
  | none => .ok ⟨false, "no signature found", none⟩
  | some rec =>
    match sg.verifyPayload req.tenantID rec.repositoryName req.manifestDigest rec.sigB64 with
    | .error e => .error ⟨.internal, "verify: " ++ e⟩
    | .ok false => .ok ⟨false, "signature invalid", none⟩
    | .ok true => .ok ⟨true, "", some (signatureOf rec)⟩

def verifyManifest (sg : ActiveSigner) (reach : Reach) (db : Database) (c : Cache)
    (req : VerifyManifestRequest) : Except Status VerifyManifestResponse × Cache :=
  if req.manifestDigest = "" ∨ req.tenantID = "" then
    (.error ⟨.invalidArgument, "tenant_id and manifest_digest are required"⟩, c)
  else
    let found := findRec reach.read db c ⟨req.tenantID, req.manifestDigest⟩
      (sg.signerOf req.signerID)
    (verifyRecord sg req found.1, found.2)

def listSignatures (reach : Reach) (db : Database) (c : Cache) (k : RecordKey) :
    Except Status (List Signature) × Cache :=
  if k.tenant = "" ∨ k.manifestDigest = "" then
    (.error ⟨.invalidArgument, "tenant_id and manifest_digest are required"⟩, c)
  else
    let recs := list reach.read db c k
    (.ok (recs.1.map signatureOf), recs.2)

structure ProxyCacheSignPolicy where
  (tenantID upstreamName : String)
  autoSign : Bool
  keyID : String

def ProxyCacheSignPolicy.key (p : ProxyCacheSignPolicy) : String × String :=
  (p.tenantID, p.upstreamName)

abbrev Policies := Table ProxyCacheSignPolicy (String × String) ProxyCacheSignPolicy.key

def repoliced (p old : ProxyCacheSignPolicy) : ProxyCacheSignPolicy :=
  { old with autoSign := p.autoSign, keyID := p.keyID }

theorem repoliced_key (p old : ProxyCacheSignPolicy) : (repoliced p old).key = old.key := rfl

def setProxyCacheSignPolicy (reach : Reach) (policies : Policies) (p : ProxyCacheSignPolicy) :
    Policies :=
  if p.tenantID = "" ∨ p.upstreamName = "" then policies
  else if reach.policy then policies.upsert p (repoliced p) (repoliced_key p)
  else policies

structure CachePopulatedPayload where
  (tenantID upstreamName image manifestDigest : String)

def shouldAutoSign : Option ProxyCacheSignPolicy → Bool
  | none => false
  | some p => p.autoSign && p.keyID ≠ ""

def proxyRepoName (p : CachePopulatedPayload) : String :=
  "proxy/" ++ p.upstreamName ++ "/" ++ p.image

def autoSignedRecord (now : Int) (p : CachePopulatedPayload) (keyID sig digest : String) : Record :=
  { tenantID := p.tenantID
    signerID := keyID
    manifestDigest := p.manifestDigest
    repositoryName := proxyRepoName p
    signatureDigest := digest
    keyID := keyID
    sigB64 := sig
    signedAt := now }

def signingPolicy (reach : Reach) (policies : Policies) (p : CachePopulatedPayload) :
    Option ProxyCacheSignPolicy :=
  if p.tenantID = "" ∨ p.upstreamName = "" ∨ p.manifestDigest = "" then none
  else if reach.policy then
    (policies.get (p.tenantID, p.upstreamName)).filter fun policy => shouldAutoSign (some policy)
  else none

def handle (sg : ActiveSigner) (reach : Reach) (nonce : Nat) (now : Int) (policies : Policies)
    (db : Database) (c : Cache) (p : CachePopulatedPayload) : Option Record × Cache × Database :=
  match signingPolicy reach policies p with
  | none => (none, c, db)
  | some policy =>
    let existing := findRec reach.read db c ⟨p.tenantID, p.manifestDigest⟩ policy.keyID
    if existing.1.isSome then (none, existing.2, db)
    else
      match sg.signPayload nonce p.tenantID (proxyRepoName p) p.manifestDigest with
      | .error _ => (none, existing.2, db)
      | .ok sig =>
        match sg.signatureDigest sig with
        | .error _ => (none, existing.2, db)
        | .ok digest =>
          let entry := autoSignedRecord now p policy.keyID sig digest
          (some entry, add reach.write db existing.2 entry)

/-- The table, the policies and the memory of every replica. -/
structure State (ι : Type*) where
  db : Database
  policies : Policies
  caches : ι → Cache

inductive Op (ι : Type*) where
  | signManifest (i : ι) (reach : Reach) (nonce : Nat) (now : Int) (req : SignManifestRequest)
  | verifyManifest (i : ι) (reach : Reach) (req : VerifyManifestRequest)
  | listSignatures (i : ι) (reach : Reach) (k : RecordKey)
  | setProxyCacheSignPolicy (reach : Reach) (p : ProxyCacheSignPolicy)
  | cachePopulated (i : ι) (reach : Reach) (nonce : Nat) (now : Int) (p : CachePopulatedPayload)
  | restart (i : ι)

section History

variable {ι : Type*} (signers : ι → ActiveSigner)

def State.leave [DecidableEq ι] (s : State ι) (i : ι) (out : Cache × Database) : State ι :=
  { s with db := out.2, caches := update s.caches i out.1 }

def State.step [DecidableEq ι] (s : State ι) : Op ι → State ι
  | .signManifest i reach nonce now req =>
    s.leave i (signManifest (signers i) reach nonce now s.db (s.caches i) req).2
  | .verifyManifest i reach req =>
    s.leave i ((verifyManifest (signers i) reach s.db (s.caches i) req).2, s.db)
  | .listSignatures i reach k =>
    s.leave i ((listSignatures reach s.db (s.caches i) k).2, s.db)
  | .setProxyCacheSignPolicy reach p =>
    { s with policies := setProxyCacheSignPolicy reach s.policies p }
  | .cachePopulated i reach nonce now p =>
    s.leave i (handle (signers i) reach nonce now s.policies s.db (s.caches i) p).2
  | .restart i => s.leave i (fun _ => [], s.db)

def State.fresh (db : Database) (policies : Policies) : State ι := ⟨db, policies, fun _ _ => []⟩

def State.Verified (s : State ι) (i : ι) (reach : Reach) (req : VerifyManifestRequest) : Prop :=
  ∃ sig, (verifyManifest (signers i) reach s.db (s.caches i) req).1 = .ok ⟨true, "", some sig⟩

def State.Signs (s : State ι) (i : ι) (k : RecordKey) (g : String) : Op ι → Prop
  | .signManifest j reach nonce now req =>
    j = i ∧ (⟨req.tenantID, req.manifestDigest⟩ : RecordKey) = k ∧
      (signers j).signerOf req.signerID = g ∧
      ∃ sig, (signManifest (signers j) reach nonce now s.db (s.caches j) req).1 = .ok sig
  | .cachePopulated j reach nonce now p =>
    j = i ∧ ∃ rec, (handle (signers j) reach nonce now s.policies s.db (s.caches j) p).1 =
      some rec ∧ rec.key = k ∧ rec.signerID = g
  | _ => False

end History

structure Warmed (db : Database) (c c' : Cache) : Prop where
  found : ∀ k g, findIn (c' k) g = findIn (c k) g ∨
    (findIn (c k) g = none ∧ ∃ row, findIn (c' k) g = some (scanRecord row))
  members : ∀ k, ∀ r ∈ c' k, r ∈ c k ∨ ∃ row ∈ db.rowsOf k, scanRecord row = r

theorem Warmed.refl (db : Database) (c : Cache) : Warmed db c c :=
  ⟨fun _ _ => Or.inl rfl, fun _ _ hr => Or.inl hr⟩

variable {db : Database} {c : Cache} {k : RecordKey}

theorem Warmed.update {bucket : List Record} (hfound : ∀ g, findIn bucket g = findIn (c k) g ∨
      (findIn (c k) g = none ∧ ∃ row, findIn bucket g = some (scanRecord row)))
    (hmembers : ∀ r ∈ bucket, r ∈ c k ∨ ∃ row ∈ db.rowsOf k, scanRecord row = r) :
    Warmed db c (update c k bucket) where
  found k' g := by
    by_cases hk : k' = k
    · subst hk
      rw [update_self]
      exact hfound g
    · rw [update_of_ne hk]
      exact Or.inl rfl
  members k' r hr := by
    by_cases hk : k' = k
    · subst hk
      rw [update_self] at hr
      exact hmembers r hr
    · rw [update_of_ne hk] at hr
      exact Or.inl hr

theorem findRec_warmed (reachable : Bool) (db : Database) (c : Cache) (k : RecordKey)
    (g : String) : Warmed db c (findRec reachable db c k g).2 := by
  unfold findRec
  cases hf : findIn (c k) g with
  | some r => exact Warmed.refl db c
  | none =>
    cases reachable with
    | false => exact Warmed.refl db c
    | true =>
      cases hrow : db.get (k, g) with
      | none =>
        simp only [Database.findRec, hrow]
        exact Warmed.refl db c
      | some row =>
        simp only [Database.findRec, hrow]
        have hkey := Table.key_of_get hrow
        have hsigner : row.signerID = g := congrArg Prod.snd hkey
        rw [← hsigner] at hf
        apply Warmed.update
        · intro g'
          rw [← putRecord_of_miss hf, findIn_putRecord]
          by_cases hg : row.signerID = g'
          · right
            rw [← hg]
            exact ⟨hf, row, if_pos rfl⟩
          · exact Or.inl (if_neg hg)
        · intro r hr
          rcases List.mem_append.mp hr with hold | hnew
          · exact Or.inl hold
          · rw [List.mem_singleton.mp hnew]
            have hof : row ∈ db.rowsOf k :=
              mem_rowsOf.mpr ⟨Table.mem_of_get hrow, congrArg Prod.fst hkey⟩
            exact Or.inr ⟨row, hof, rfl⟩

theorem list_warmed (reachable : Bool) (db : Database) (c : Cache) (k : RecordKey) :
    Warmed db c (list reachable db c k).2 := by
  unfold list
  by_cases hempty : c k = []
  · cases reachable with
    | false => simpa [hempty] using Warmed.refl db c
    | true =>
      by_cases hread : db.list k = []
      · simpa [hempty, hread] using Warmed.refl db c
      · simp only [hempty, ne_eq, not_true_eq_false, if_false, if_true, hread, not_false_eq_true]
        apply Warmed.update
        · intro g
          cases hf : findIn (db.list k) g with
          | none => exact Or.inl (by rw [hempty]; rfl)
          | some r =>
            obtain ⟨row, _, rfl⟩ := mem_list.mp (mem_of_findIn hf)
            exact Or.inr ⟨by rw [hempty]; rfl, row, rfl⟩
        · intro r hr
          exact Or.inr (mem_list.mp hr)
  · simpa [hempty] using Warmed.refl db c

theorem verifyManifest_warmed (sg : ActiveSigner) (reach : Reach) (db : Database) (c : Cache)
    (req : VerifyManifestRequest) : Warmed db c (verifyManifest sg reach db c req).2 := by
  unfold verifyManifest
  by_cases hreq : req.manifestDigest = "" ∨ req.tenantID = ""
  · rw [if_pos hreq]
    exact Warmed.refl db c
  · rw [if_neg hreq]
    apply findRec_warmed

theorem listSignatures_warmed (reach : Reach) (db : Database) (c : Cache) (k : RecordKey) :
    Warmed db c (listSignatures reach db c k).2 := by
  unfold listSignatures
  by_cases hk : k.tenant = "" ∨ k.manifestDigest = ""
  · rw [if_pos hk]
    exact Warmed.refl db c
  · rw [if_neg hk]
    apply list_warmed

theorem findIn_add (reachable : Bool) (db : Database) (c : Cache) (entry : Record)
    (k : RecordKey) (g : String) :
    findIn ((add reachable db c entry).1 k) g =
      if entry.key = k ∧ entry.signerID = g then some entry else findIn (c k) g := by
  show findIn (update c entry.key (putRecord entry (c entry.key)) k) g = _
  by_cases hk : entry.key = k
  · subst hk
    rw [update_self, findIn_putRecord]
    simp
  · rw [update_of_ne (Ne.symm hk)]
    simp [hk]

def Stores (reach : Reach) (db : Database) (c : Cache) (entry : Record)
    (out : Cache × Database) : Prop :=
  ∃ c', Warmed db c c' ∧ out = add reach.write db c' entry

theorem signManifest_cases (sg : ActiveSigner) (reach : Reach) (nonce : Nat) (now : Int)
    (db : Database) (c : Cache) (req : SignManifestRequest) :
    (∃ st c', signManifest sg reach nonce now db c req = (.error st, c', db) ∧ Warmed db c c') ∨
    ∃ sig digest out, ¬ (req.tenantID = "" ∨ req.manifestDigest = "" ∨ req.repositoryName = "") ∧
      sg.signPayload nonce req.tenantID req.repositoryName req.manifestDigest = .ok sig ∧
      signManifest sg reach nonce now db c req =
        (.ok (signatureOf (signedRecord sg now req sig digest)), out) ∧
      Stores reach db c (signedRecord sg now req sig digest) out := by
  unfold signManifest
  by_cases hreq : req.tenantID = "" ∨ req.manifestDigest = "" ∨ req.repositoryName = ""
  · rw [if_pos hreq]
    exact Or.inl ⟨_, c, rfl, Warmed.refl db c⟩
  rw [if_neg hreq]
  cases hsig : sg.signPayload nonce req.tenantID req.repositoryName req.manifestDigest with
  | error e => exact Or.inl ⟨_, c, rfl, Warmed.refl db c⟩
  | ok sig =>
    cases hdig : sg.signatureDigest sig with
    | error e =>
      simp only [hdig]
      exact Or.inl ⟨_, c, rfl, Warmed.refl db c⟩
    | ok digest =>
      simp only [hdig]
      have hwarm := findRec_warmed reach.read db c (signedRecord sg now req sig digest).key
        (signedRecord sg now req sig digest).signerID
      split
      · exact Or.inl ⟨_, _, rfl, hwarm⟩
      · exact Or.inr ⟨sig, digest, _, hreq, rfl, rfl, ⟨_, hwarm, rfl⟩⟩

theorem handle_cases (sg : ActiveSigner) (reach : Reach) (nonce : Nat) (now : Int)
    (policies : Policies) (db : Database) (c : Cache) (p : CachePopulatedPayload) :
    (∃ c', handle sg reach nonce now policies db c p = (none, c', db) ∧ Warmed db c c') ∨
    ∃ policy sig digest out, signingPolicy reach policies p = some policy ∧
      ¬ (findRec reach.read db c ⟨p.tenantID, p.manifestDigest⟩ policy.keyID).1.isSome ∧
      sg.signPayload nonce p.tenantID (proxyRepoName p) p.manifestDigest = .ok sig ∧
      handle sg reach nonce now policies db c p =
        (some (autoSignedRecord now p policy.keyID sig digest), out) ∧
      Stores reach db c (autoSignedRecord now p policy.keyID sig digest) out := by
  unfold handle
  cases hpol : signingPolicy reach policies p with
  | none => exact Or.inl ⟨c, rfl, Warmed.refl db c⟩
  | some policy =>
    have hwarm := findRec_warmed reach.read db c ⟨p.tenantID, p.manifestDigest⟩ policy.keyID
    simp only
    split
    · exact Or.inl ⟨_, rfl, hwarm⟩
    · rename_i hnew
      cases hsig : sg.signPayload nonce p.tenantID (proxyRepoName p) p.manifestDigest with
      | error e => exact Or.inl ⟨_, rfl, hwarm⟩
      | ok sig =>
        cases hdig : sg.signatureDigest sig with
        | error e => exact Or.inl ⟨_, by simp only [hdig], hwarm⟩
        | ok digest =>
          exact Or.inr ⟨policy, sig, digest, _, rfl, hnew, rfl, by simp only [hdig],
            ⟨_, hwarm, rfl⟩⟩

variable {reach : Reach}

theorem signingPolicy_fields {policies : Policies} {p : CachePopulatedPayload}
    {policy : ProxyCacheSignPolicy} (h : signingPolicy reach policies p = some policy) :
    p.tenantID ≠ "" ∧ p.manifestDigest ≠ "" := by
  unfold signingPolicy at h
  by_cases hp : p.tenantID = "" ∨ p.upstreamName = "" ∨ p.manifestDigest = ""
  · rw [if_pos hp] at h
    cases h
  · rw [not_or, not_or] at hp
    exact ⟨hp.1, hp.2.2⟩

def Holds (sg : ActiveSigner) (c : Cache) (k : RecordKey) (g : String) : Prop :=
  ∃ r, findIn (c k) g = some r ∧
    sg.verifyPayload k.tenant r.repositoryName k.manifestDigest r.sigB64 = .ok true

variable {sg : ActiveSigner}

theorem Holds.of_verified {reachable : Bool}
    {g : String} {r : Record} (hr : (findRec reachable db c k g).1 = some r)
    (h : sg.verifyPayload k.tenant r.repositoryName k.manifestDigest r.sigB64 = .ok true) :
    Holds sg c k g := by
  unfold findRec at hr
  cases hf : findIn (c k) g with
  | some r' =>
    rw [hf] at hr
    cases hr
    exact ⟨r, hf, h⟩
  | none =>
    -- What the table returns has no signature to verify.
    rw [hf] at hr
    cases reachable with
    | false => cases hr
    | true =>
      cases hrow : db.get (k, g) with
      | none =>
        simp [Database.findRec, hrow] at hr
      | some row =>
        simp only [Database.findRec, hrow, Option.map_some, if_true, Option.some.injEq] at hr
        rw [← hr] at h
        have hempty := sg.verify_empty k.tenant (scanRecord row).repositoryName k.manifestDigest
        rw [show (scanRecord row).sigB64 = "" from rfl, hempty] at h
        cases h

theorem findRec_of_findIn {reachable : Bool}
    {g : String} {r : Record} (h : findIn (c k) g = some r) :
    (findRec reachable db c k g).1 = some r := by
  simp [findRec, h]

theorem verifyRecord_ok_iff {req : VerifyManifestRequest} {found : Option Record} :
    (∃ sig, verifyRecord sg req found = .ok ⟨true, "", some sig⟩) ↔ ∃ r, found = some r ∧
        sg.verifyPayload req.tenantID r.repositoryName req.manifestDigest r.sigB64 = .ok true := by
  cases found with
  | none => simp [verifyRecord]
  | some r =>
    cases hv : sg.verifyPayload req.tenantID r.repositoryName req.manifestDigest r.sigB64 with
    | error e => simp [verifyRecord, hv]
    | ok b => cases b <;> simp [verifyRecord, hv]

theorem verified_iff_holds {ι : Type*} {signers : ι → ActiveSigner} {s : State ι} {i : ι}
    {req : VerifyManifestRequest} :
    s.Verified signers i reach req ↔ (req.tenantID ≠ "" ∧ req.manifestDigest ≠ "") ∧
      Holds (signers i) (s.caches i) ⟨req.tenantID, req.manifestDigest⟩
        ((signers i).signerOf req.signerID) := by
  unfold State.Verified verifyManifest
  by_cases hreq : req.manifestDigest = "" ∨ req.tenantID = ""
  · constructor
    · intro h
      simp [hreq] at h
    · rintro ⟨⟨ht, hd⟩, _⟩
      exact absurd hreq (by simp [ht, hd])
  · simp only [hreq, if_false, verifyRecord_ok_iff]
    rw [not_or] at hreq
    rw [and_iff_right ⟨hreq.2, hreq.1⟩]
    constructor
    · rintro ⟨r, hr, hv⟩
      exact Holds.of_verified hr hv
    · rintro ⟨r, hr, hv⟩
      exact ⟨r, findRec_of_findIn hr, hv⟩

theorem Warmed.holds_iff {c' : Cache}
    (h : Warmed db c c') (k : RecordKey) (g : String) : Holds sg c' k g ↔ Holds sg c k g := by
  unfold Holds
  rcases h.found k g with hsame | ⟨hnone, row, hrow⟩
  · rw [hsame]
  · have hempty := sg.verify_empty k.tenant (scanRecord row).repositoryName k.manifestDigest
    rw [hrow, hnone]
    constructor
    · rintro ⟨r, hr, hv⟩
      cases hr
      rw [show (scanRecord row).sigB64 = "" from rfl, hempty] at hv
      cases hv
    · rintro ⟨r, hr, _⟩
      cases hr

theorem Stores.holds_iff {entry : Record} {out : Cache × Database} (h : Stores reach db c entry out)
    (hv : sg.verifyPayload entry.tenantID entry.repositoryName entry.manifestDigest
      entry.sigB64 = .ok true) (k : RecordKey) (g : String) :
    Holds sg out.1 k g ↔ (entry.key = k ∧ entry.signerID = g) ∨ Holds sg c k g := by
  obtain ⟨c', hwarm, rfl⟩ := h
  rw [← hwarm.holds_iff k g]
  unfold Holds
  rw [findIn_add]
  by_cases hown : entry.key = k ∧ entry.signerID = g
  · obtain ⟨rfl, rfl⟩ := hown
    rw [if_pos ⟨rfl, rfl⟩]
    exact iff_of_true ⟨entry, rfl, hv⟩ (Or.inl ⟨rfl, rfl⟩)
  · rw [if_neg hown, or_iff_right hown]

section Since

variable {ι : Type*} {signers : ι → ActiveSigner}

theorem State.leave_caches [DecidableEq ι] (s : State ι) (i j : ι) (out : Cache × Database) :
    (s.leave i out).caches j = if j = i then out.1 else s.caches j := by
  by_cases hj : j = i
  · subst hj
    simp [State.leave]
  · simp [State.leave, hj]

theorem leave_holds_iff [DecidableEq ι] {s : State ι} {i j : ι} {out : Cache × Database}
    {k : RecordKey} {g : String} {P : Prop}
    (h : Holds (signers j) out.1 k g ↔ P ∨ Holds (signers j) (s.caches j) k g) :
    Holds (signers i) ((s.leave j out).caches i) k g ↔
      (j = i ∧ P) ∨ Holds (signers i) (s.caches i) k g := by
  rw [State.leave_caches]
  by_cases hij : i = j
  · subst hij
    simpa using h
  · simp [hij, Ne.symm hij]

theorem signManifest_holds_iff (s : State ι) (j : ι) (reach : Reach) (nonce : Nat) (now : Int)
    (req : SignManifestRequest) (k : RecordKey) (g : String) :
    Holds (signers j) (signManifest (signers j) reach nonce now s.db (s.caches j) req).2.1 k g ↔
      ((⟨req.tenantID, req.manifestDigest⟩ : RecordKey) = k ∧
        (signers j).signerOf req.signerID = g ∧
        ∃ sig, (signManifest (signers j) reach nonce now s.db (s.caches j) req).1 = .ok sig) ∨
      Holds (signers j) (s.caches j) k g := by
  rcases signManifest_cases (signers j) reach nonce now s.db (s.caches j) req with
    ⟨st, c', hout, hwarm⟩ | ⟨sig, digest, out, _, hsig, hout, hstores⟩
  · rw [hout]
    simpa using hwarm.holds_iff k g
  · rw [hout]
    have hv := (signers j).verify_signed _ _ _ _ _ hsig
    refine (hstores.holds_iff hv k g).trans ?_
    simp [signedRecord, Record.key]

theorem handle_holds_iff (s : State ι) (j : ι) (reach : Reach) (nonce : Nat) (now : Int)
    (p : CachePopulatedPayload) (k : RecordKey) (g : String) :
    Holds (signers j) (handle (signers j) reach nonce now s.policies s.db (s.caches j) p).2.1 k g ↔
      (∃ rec, (handle (signers j) reach nonce now s.policies s.db (s.caches j) p).1 =
        some rec ∧ rec.key = k ∧ rec.signerID = g) ∨
      Holds (signers j) (s.caches j) k g := by
  rcases handle_cases (signers j) reach nonce now s.policies s.db (s.caches j) p with
    ⟨c', hout, hwarm⟩ | ⟨policy, sig, digest, out, _, _, hsig, hout, hstores⟩
  · rw [hout]
    simpa using hwarm.holds_iff k g
  · rw [hout]
    have hv := (signers j).verify_signed _ _ _ _ _ hsig
    refine (hstores.holds_iff hv k g).trans ?_
    simp

theorem verifies_step_iff [DecidableEq ι] (s : State ι) (op : Op ι) (i : ι) (k : RecordKey)
    (g : String) :
    Holds (signers i) ((s.step signers op).caches i) k g ↔ s.Signs signers i k g op ∨
        (Holds (signers i) (s.caches i) k g ∧ ¬ op = .restart i) := by
  have hlookup : ∀ (j : ι) {c' : Cache}, Warmed s.db (s.caches j) c' →
      (Holds (signers i) ((s.leave j (c', s.db)).caches i) k g ↔
        Holds (signers i) (s.caches i) k g) := by
    intro j c' hwarm
    refine (leave_holds_iff (P := False) ?_).trans (by simp)
    simpa using hwarm.holds_iff k g
  cases op with
  | signManifest j reach nonce now req =>
    refine (leave_holds_iff (signManifest_holds_iff s j reach nonce now req k g)).trans ?_
    simp [State.Signs]
  | verifyManifest j reach req =>
    refine (hlookup j (verifyManifest_warmed (signers j) reach s.db _ req)).trans ?_
    simp [State.Signs]
  | listSignatures j reach k' =>
    refine (hlookup j (listSignatures_warmed reach s.db _ k')).trans ?_
    simp [State.Signs]
  | setProxyCacheSignPolicy reach p => simp [State.step, State.Signs]
  | cachePopulated j reach nonce now p =>
    refine (leave_holds_iff (handle_holds_iff s j reach nonce now p k g)).trans ?_
    simp [State.Signs]
  | restart j =>
    show Holds (signers i) ((s.leave j (fun _ => [], s.db)).caches i) k g ↔ _
    rw [State.leave_caches]
    by_cases hij : i = j
    · subst hij
      simp [Holds, findIn, State.Signs]
    · simp [hij, Ne.symm hij, State.Signs]

theorem State.Signs.fields {s : State ι} {i : ι} {k : RecordKey} {g : String} {op : Op ι}
    (h : s.Signs signers i k g op) : k.tenant ≠ "" ∧ k.manifestDigest ≠ "" := by
  cases op with
  | signManifest j reach nonce now req =>
    obtain ⟨_, rfl, _, sig, hok⟩ := h
    rcases signManifest_cases (signers j) reach nonce now s.db (s.caches j) req with
      ⟨st, c', hout, _⟩ | ⟨_, _, _, hfields, _⟩
    · rw [hout] at hok
      cases hok
    · rw [not_or, not_or] at hfields
      exact ⟨hfields.1, hfields.2.1⟩
  | cachePopulated j reach nonce now p =>
    obtain ⟨_, rec, hrec, rfl, _⟩ := h
    rcases handle_cases (signers j) reach nonce now s.policies s.db (s.caches j) p with
      ⟨c', hout, _⟩ | ⟨policy, sig, digest, out, hpol, _, _, hout, _⟩
    · rw [hout] at hrec
      cases hrec
    · rw [hout] at hrec
      cases hrec
      exact signingPolicy_fields hpol
  | verifyManifest | listSignatures | setProxyCacheSignPolicy | restart => exact h.elim

/-- **What `VerifyManifest` answers.** -/
theorem verified_iff_signed_since [DecidableEq ι] (signers : ι → ActiveSigner) (db : Database)
    (policies : Policies) (ops : List (Op ι)) (i : ι) (reach : Reach)
    (req : VerifyManifestRequest) :
    (run (State.step signers) (State.fresh db policies) ops).Verified signers i reach req ↔
      ∃ soon op rest, ops = soon ++ op :: rest ∧
        (run (State.step signers) (State.fresh db policies) soon).Signs signers i
          ⟨req.tenantID, req.manifestDigest⟩ ((signers i).signerOf req.signerID) op ∧
        ∀ op' ∈ rest, ¬ op' = .restart i := by
  have hstart : ¬ Holds (signers i) ((State.fresh (ι := ι) db policies).caches i)
      ⟨req.tenantID, req.manifestDigest⟩ ((signers i).signerOf req.signerID) := by
    simp [Holds, State.fresh, findIn]
  rw [verified_iff_holds, run_since_iff (W := fun _ => True)
    (P := fun s => Holds (signers i) (s.caches i) ⟨req.tenantID, req.manifestDigest⟩
      ((signers i).signerOf req.signerID))
    (fun _ _ _ => trivial) (fun s op _ => verifies_step_iff s op i _ _) trivial]
  constructor
  · rintro ⟨_, ⟨hbefore, _⟩ | h⟩
    · exact absurd hbefore hstart
    · exact h
  · rintro ⟨soon, op, rest, hops, hsigns, hrest⟩
    exact ⟨hsigns.fields, Or.inr ⟨soon, op, rest, hops, hsigns, hrest⟩⟩

end Since

def sampleSigner : ActiveSigner where
  keyID := "k1"
  signPayload _ _ _ _ := .ok "c2ln"
  verifyPayload _ _ _ sig := .ok (sig = "c2ln")
  signatureDigest _ := .ok "sha256:sig"
  verify_signed := by
    rintro _ _ _ _ sig h
    cases h
    rfl
  verify_empty := by
    intro _ _ _
    rfl

def allReachable : Reach := ⟨true, true, true⟩

def signSample : Op Bool :=
  .signManifest false allReachable 0 1000 ⟨"acme", "acme/app", "sha256:app", ""⟩

def verifySample : VerifyManifestRequest := ⟨"acme", "sha256:app", ""⟩

def afterSigning (ops : List (Op Bool)) : State Bool :=
  run (State.step fun _ => sampleSigner) (State.fresh emptyDb Table.empty) ops

def answerOf (s : State Bool) (i : Bool) : Except Status VerifyManifestResponse :=
  (verifyManifest sampleSigner allReachable s.db (s.caches i) verifySample).1

theorem signature_lost_with_process :
    (∃ sig, (signManifest sampleSigner allReachable 0 1000 emptyDb (fun _ => [])
      ⟨"acme", "acme/app", "sha256:app", ""⟩).1 = .ok sig) ∧
    answerOf (afterSigning [signSample]) false =
      .ok ⟨true, "", some ⟨"k1", "sha256:app", "sha256:sig", "k1", 1000⟩⟩ ∧
    answerOf (afterSigning [signSample]) true = .ok ⟨false, "signature invalid", none⟩ ∧
    answerOf (afterSigning [signSample, .restart false]) false =
      .ok ⟨false, "signature invalid", none⟩ := by
  refine ⟨⟨⟨"k1", "sha256:app", "sha256:sig", "k1", 1000⟩, ?_⟩, ?_, ?_, ?_⟩
  · rfl
  · rfl
  · rfl
  · rfl

end OciJanus.Signer.Signatures
