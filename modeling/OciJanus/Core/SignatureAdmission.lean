import OciJanus.Signer.Signatures
import OciJanus.Core.UploadHandlers
import OciJanus.Metadata.Tables

/-!
# Signed-image admission

The gate compares key ids. The world has one component that no service has: the log of the
signatures actually computed.
-/

namespace OciJanus.Core.SignatureAdmission

open Verified.KeyedTable Verified.Run Metadata Signer.Sigstore Signer.Signatures List
open Core.UploadHandlers (matchesDigestRE)

structure RepositorySettings where
  (repoID tenantID : String)
  requireSignature : Bool
  maxCvssScore : Option Int
  deriving DecidableEq

abbrev Settings := Table RepositorySettings String (·.repoID)

structure TrustedKey where
  (repoID tenantID keyID : String)

def TrustedKey.key (k : TrustedKey) : String × String := (k.repoID, k.keyID)

abbrev TrustedKeys := Table TrustedKey (String × String) TrustedKey.key

def getRepository (settings : Settings) (tenantID repoID : String) : Option RepositorySettings :=
  (settings.get repoID).filter fun r => r.tenantID = tenantID

def listRepositoryTrustedKeys (keys : TrustedKeys) (tenantID repoID : String) : List String :=
  (keys.rows.filter fun k => k.tenantID = tenantID ∧ k.repoID = repoID).map (·.keyID)

inductive PullError where
  | notFound
  | signatureRequired
  | cvssThresholdExceeded (topCVSS threshold : Int)
  deriving DecidableEq

def checkSignatureAdmission (repo : Option RepositorySettings)
    (signatures : Option (List Signature)) (trusted : Option (List String)) :
    Except PullError Unit :=
  match repo with
  | none => .ok ()
  | some r =>
    if r.requireSignature = false then .ok ()
    else
      match signatures with
      | none => .ok ()
      | some sigs =>
        if sigs = [] then .error .signatureRequired
        else
          match trusted with
          | none => .ok ()
          | some keys =>
            if keys = [] then .ok ()
            else if sigs.any fun s => s.keyID ∈ keys then .ok ()
            else .error .signatureRequired

structure SeverityCounts where
  (critical high medium low : Int)
  deriving DecidableEq

def topCVSSFromSeverity (counts : SeverityCounts) : Int :=
  if counts.critical > 0 then 100
  else if counts.high > 0 then 89
  else if counts.medium > 0 then 69
  else if counts.low > 0 then 39
  else 0

def checkCVSSAdmission (repo : Option RepositorySettings) (scan : Option SeverityCounts) :
    Except PullError Unit :=
  match repo with
  | none => .ok ()
  | some r =>
    match r.maxCvssScore with
    | none => .ok ()
    | some threshold =>
      match scan with
      | none => .ok ()
      | some counts =>
        if topCVSSFromSeverity counts > threshold then
          .error (.cvssThresholdExceeded (topCVSSFromSeverity counts) threshold)
        else .ok ()

/-- `computed` remembers which key has signed what. -/
structure World (ι : Type*) where
  signer : State ι
  settings : Settings
  trusted : TrustedKeys
  computed : List (RecordKey × String)

inductive Action (ι : Type*) where
  | signer (op : Op ι)
  | updateRepositorySignaturePolicy (tenantID repoID : String) (requireSignature : Bool)
  | addRepositoryTrustedKey (k : TrustedKey)
  | removeRepositoryTrustedKey (tenantID repoID keyID : String)

def withSignaturePolicy (tenantID : String) (requireSignature : Bool) (r : RepositorySettings) :
    RepositorySettings :=
  if r.tenantID = tenantID then { r with requireSignature := requireSignature } else r

theorem withSignaturePolicy_key (tenantID : String) (requireSignature : Bool)
    (r : RepositorySettings) :
    (withSignaturePolicy tenantID requireSignature r).repoID = r.repoID := by
  unfold withSignaturePolicy
  split <;> rfl

def signatureMade {ι : Type*} (signers : ι → ActiveSigner) (s : State ι) :
    Op ι → List (RecordKey × String)
  | .signManifest i _ nonce _ req =>
    if req.tenantID = "" ∨ req.manifestDigest = "" ∨ req.repositoryName = "" then []
    else
      match (signers i).signPayload nonce req.tenantID req.repositoryName req.manifestDigest with
      | .error _ => []
      | .ok _ => [(⟨req.tenantID, req.manifestDigest⟩, (signers i).keyID)]
  | .cachePopulated i reach nonce _ p =>
    match signingPolicy reach s.policies p with
    | none => []
    | some policy =>
      if (findRec reach.read s.db (s.caches i) ⟨p.tenantID, p.manifestDigest⟩
        policy.keyID).1.isSome then []
      else
        match (signers i).signPayload nonce p.tenantID (proxyRepoName p) p.manifestDigest with
        | .error _ => []
        | .ok _ => [(⟨p.tenantID, p.manifestDigest⟩, (signers i).keyID)]
  | _ => []

section World

variable {ι : Type*} (signers : ι → ActiveSigner)

def World.step [DecidableEq ι] (w : World ι) : Action ι → World ι
  | .signer op =>
    { w with
      signer := w.signer.step signers op
      computed := w.computed ++ signatureMade signers w.signer op }
  | .updateRepositorySignaturePolicy t r require =>
    { w with
      settings := w.settings.modify r (withSignaturePolicy t require)
        (withSignaturePolicy_key t require) }
  | .addRepositoryTrustedKey k => { w with trusted := w.trusted.insertNew k }
  | .removeRepositoryTrustedKey t r keyID =>
    { w with
      trusted := w.trusted.remove fun k =>
        k.tenantID = t ∧ k.repoID = r ∧ k.keyID = keyID }

def World.fresh (policies : Policies) (settings : Settings) : World ι :=
  ⟨State.fresh emptyDb policies, settings, Table.empty, []⟩

def World.signatures (w : World ι) (i : ι) (k : RecordKey) : Option (List Signature) :=
  (listSignatures allReachable w.signer.db (w.signer.caches i) k).1.toOption

def World.getManifest (w : World ι) (store : Store) (scan : String → Option SeverityCounts)
    (i : ι) (tenantID repoID reference : String) : Except PullError Manifest :=
  let digest :=
    if matchesDigestRE reference then some reference
    else (store.getTag tenantID repoID reference).map (·.manifestDigest)
  match digest with
  | none => .error .notFound
  | some d =>
    match store.manifestRow tenantID repoID d with
    | none => .error .notFound
    | some m => do
      checkSignatureAdmission (getRepository w.settings tenantID repoID)
        (w.signatures i ⟨tenantID, m.digest⟩)
        (some (listRepositoryTrustedKeys w.trusted tenantID repoID))
      checkCVSSAdmission (getRepository w.settings tenantID repoID) (scan m.digest)
      return m

def World.AdmissionHonest (w : World ι) : Prop :=
  ∀ (store : Store) (scan : String → Option SeverityCounts) (i : ι)
    (tenantID repoID reference : String) (m : Manifest) (r : RepositorySettings),
    w.getManifest store scan i tenantID repoID reference = .ok m →
    getRepository w.settings tenantID repoID = some r → r.requireSignature = true →
    listRepositoryTrustedKeys w.trusted tenantID repoID ≠ [] →
    tenantID ≠ "" → m.digest ≠ "" →
    ∃ keyID ∈ listRepositoryTrustedKeys w.trusted tenantID repoID,
      ((⟨tenantID, m.digest⟩ : RecordKey), keyID) ∈ w.computed

def World.KeysMatch (w : World ι) : Action ι → Prop
  | .signer (.cachePopulated i reach _ _ p) =>
    ∀ policy ∈ signingPolicy reach w.signer.policies p, policy.keyID = (signers i).keyID
  | _ => True

end World

def Vouched (computed : List (RecordKey × String)) (c : Cache) : Prop :=
  ∀ k, ∀ r ∈ c k, (k, r.keyID) ∈ computed

def VouchedRows (computed : List (RecordKey × String)) (db : Database) : Prop :=
  ∀ row ∈ db.rows, (row.key.1, row.keyID) ∈ computed

section Vouched

variable {computed more : List (RecordKey × String)} {db : Database} {c c' : Cache}

theorem Vouched.mono (h : Vouched computed c) : Vouched (computed ++ more) c :=
  fun k r hr => mem_append_left _ (h k r hr)

theorem VouchedRows.mono (h : VouchedRows computed db) : VouchedRows (computed ++ more) db :=
  fun row hrow => mem_append_left _ (h row hrow)

theorem Vouched.warmed (h : Vouched computed c) (hdb : VouchedRows computed db)
    (hwarm : Warmed db c c') : Vouched computed c' := by
  intro k r hr
  rcases hwarm.members k r hr with hold | ⟨row, hrow, rfl⟩
  · exact h k r hold
  · obtain ⟨hmem, rfl⟩ := mem_rowsOf.mp hrow
    exact hdb row hmem

variable {entry : Record}

theorem VouchedRows.store (h : VouchedRows computed db)
    (hentry : (entry.key, entry.keyID) ∈ computed) : VouchedRows computed (db.store entry) := by
  intro row hrow
  rcases Table.mem_upsert hrow with hold | rfl | ⟨old, _, hkey, rfl⟩
  · exact h row hold
  · exact hentry
  · -- The rewritten row has the key of the record, and now its key id.
    have hk : old.key.1 = entry.key := congrArg Prod.fst hkey
    show (old.key.1, entry.keyID) ∈ computed
    rwa [hk]

theorem Vouched.add (h : Vouched computed c) (reachable : Bool)
    (db : Database) (hentry : (entry.key, entry.keyID) ∈ computed) :
    Vouched computed (add reachable db c entry).1 := by
  intro k r hr
  change r ∈ Function.update c entry.key (putRecord entry (c entry.key)) k at hr
  by_cases hk : k = entry.key
  · subst hk
    rw [Function.update_self] at hr
    rcases mem_putRecord hr with rfl | hold
    · exact hentry
    · exact h _ r hold
  · rw [Function.update_of_ne hk] at hr
    exact h k r hr

theorem VouchedRows.add (h : VouchedRows computed db) (reachable : Bool)
    (c : Cache) (hentry : (entry.key, entry.keyID) ∈ computed) :
    VouchedRows computed (OciJanus.Signer.Sigstore.add reachable db c entry).2 := by
  cases reachable with
  | false => exact h
  | true => exact h.store hentry

theorem stores_vouched {reach : Reach} {out : Cache × Database}
    (h : Vouched computed c) (hdb : VouchedRows computed db)
    (hentry : (entry.key, entry.keyID) ∈ computed) (hstores : Stores reach db c entry out) :
    Vouched computed out.1 ∧ VouchedRows computed out.2 := by
  obtain ⟨c', hwarm, rfl⟩ := hstores
  exact ⟨(h.warmed hdb hwarm).add reach.write db hentry, hdb.add reach.write c' hentry⟩

end Vouched

structure Attested {ι : Type*} (s : State ι) (computed : List (RecordKey × String)) : Prop where
  rows : VouchedRows computed s.db
  caches : ∀ i, Vouched computed (s.caches i)

section Attested

variable {ι : Type*} [DecidableEq ι] {signers : ι → ActiveSigner}
  {computed more : List (RecordKey × String)} {s : State ι}

theorem Attested.leave {i : ι} {out : Cache × Database} (h : Attested s computed)
    (hout : Vouched (computed ++ more) out.1 ∧ VouchedRows (computed ++ more) out.2) :
    Attested (s.leave i out) (computed ++ more) where
  rows := hout.2
  caches j := by
    rw [State.leave_caches]
    split
    · exact hout.1
    · exact (h.caches j).mono

omit [DecidableEq ι] in
theorem Attested.warmed {i : ι} {c' : Cache} (h : Attested s computed)
    (hwarm : Warmed s.db (s.caches i) c') :
    Vouched (computed ++ more) c' ∧ VouchedRows (computed ++ more) s.db :=
  ⟨((h.caches i).warmed h.rows hwarm).mono, h.rows.mono⟩

theorem Attested.lookup {i : ι} {c' : Cache} (h : Attested s computed)
    (hwarm : Warmed s.db (s.caches i) c') : Attested (s.leave i (c', s.db)) (computed ++ more) :=
  h.leave (h.warmed hwarm)

omit [DecidableEq ι] in
theorem signManifest_vouched {i : ι} {reach : Reach} {nonce : Nat} {now : Int}
    {req : SignManifestRequest} (h : Attested s computed) :
    let made := signatureMade signers s (.signManifest i reach nonce now req)
    let out := (signManifest (signers i) reach nonce now s.db (s.caches i) req).2
    Vouched (computed ++ made) out.1 ∧ VouchedRows (computed ++ made) out.2 := by
  intro made out
  rcases signManifest_cases (signers i) reach nonce now s.db (s.caches i) req with
    ⟨st, c', hout, hwarm⟩ | ⟨sig, digest, out', hreq, hsig, hout, hstores⟩
  · have heq : out = (c', s.db) := congrArg Prod.snd hout
    rw [heq]
    exact h.warmed hwarm
  · have heq : out = out' := congrArg Prod.snd hout
    rw [heq]
    refine stores_vouched (h.caches i).mono h.rows.mono ?_ hstores
    have hmade : made = [(⟨req.tenantID, req.manifestDigest⟩, (signers i).keyID)] := by
      simp only [made, signatureMade, if_neg hreq, hsig]
    rw [hmade]
    exact mem_append_right _ (mem_singleton.mpr rfl)

omit [DecidableEq ι] in
theorem handle_vouched {i : ι} {reach : Reach} {nonce : Nat} {now : Int}
    {p : CachePopulatedPayload} (h : Attested s computed)
    (hkeys : ∀ policy ∈ signingPolicy reach s.policies p, policy.keyID = (signers i).keyID) :
    let made := signatureMade signers s (.cachePopulated i reach nonce now p)
    let out := (handle (signers i) reach nonce now s.policies s.db (s.caches i) p).2
    Vouched (computed ++ made) out.1 ∧ VouchedRows (computed ++ made) out.2 := by
  intro made out
  rcases handle_cases (signers i) reach nonce now s.policies s.db (s.caches i) p with
    ⟨c', hout, hwarm⟩ | ⟨policy, sig, digest, out', hpol, hnew, hsig, hout, hstores⟩
  · have heq : out = (c', s.db) := congrArg Prod.snd hout
    rw [heq]
    exact h.warmed hwarm
  · have heq : out = out' := congrArg Prod.snd hout
    rw [heq]
    refine stores_vouched (h.caches i).mono h.rows.mono ?_ hstores
    have hmade : made = [(⟨p.tenantID, p.manifestDigest⟩, (signers i).keyID)] := by
      simp only [made, signatureMade, hpol, if_neg hnew, hsig]
    rw [hmade, ← hkeys policy (by simpa using hpol)]
    exact mem_append_right _ (mem_singleton.mpr rfl)

end Attested

theorem checkSignatureAdmission_ok {r : RepositorySettings} {sigs : List Signature}
    {keys : List String} (hreq : r.requireSignature = true) (hkeys : keys ≠ [])
    (h : checkSignatureAdmission (some r) (some sigs) (some keys) = .ok ()) :
    ∃ sig ∈ sigs, sig.keyID ∈ keys := by
  unfold checkSignatureAdmission at h
  by_cases hsigs : sigs = []
  · simp [hreq, hsigs] at h
  · by_contra hnone
    have hany : (sigs.any fun s => s.keyID ∈ keys) = false := by
      simpa using hnone
    simp [hreq, hsigs, hkeys, hany] at h

theorem signatures_vouched {ι : Type*} {w : World ι} (h : Attested w.signer w.computed) {i : ι}
    {k : RecordKey} {sigs : List Signature} (hsigs : w.signatures i k = some sigs) :
    ∀ sig ∈ sigs, (k, sig.keyID) ∈ w.computed := by
  have hrecs : ∀ r ∈ (list true w.signer.db (w.signer.caches i) k).1,
      (k, r.keyID) ∈ w.computed := by
    intro r hr
    unfold list at hr
    by_cases hempty : w.signer.caches i k = []
    · simp only [hempty, ne_eq, not_true_eq_false, if_false, if_true] at hr
      obtain ⟨row, hrow, rfl⟩ := mem_list.mp hr
      obtain ⟨hmem, rfl⟩ := mem_rowsOf.mp hrow
      exact h.rows row hmem
    · simp only [ne_eq, hempty, not_false_eq_true, if_true] at hr
      exact h.caches i k r hr
  intro sig hsig
  unfold World.signatures listSignatures at hsigs
  by_cases hk : k.tenant = "" ∨ k.manifestDigest = ""
  · rw [if_pos hk] at hsigs
    cases hsigs
  · rw [if_neg hk] at hsigs
    cases hsigs
    obtain ⟨r, hr, rfl⟩ := mem_map.mp hsig
    exact hrecs r hr

theorem signatures_isSome {ι : Type*} {w : World ι} {i : ι} {k : RecordKey}
    (ht : k.tenant ≠ "") (hd : k.manifestDigest ≠ "") : ∃ sigs, w.signatures i k = some sigs := by
  have hk : ¬ (k.tenant = "" ∨ k.manifestDigest = "") := by simp [ht, hd]
  unfold World.signatures listSignatures
  rw [if_neg hk]
  exact ⟨_, rfl⟩

theorem getManifest_ok {ι : Type*} {w : World ι} {store : Store}
    {scan : String → Option SeverityCounts} {i : ι} {tenantID repoID reference : String}
    {m : Manifest} (h : w.getManifest store scan i tenantID repoID reference = .ok m) :
    checkSignatureAdmission (getRepository w.settings tenantID repoID)
      (w.signatures i ⟨tenantID, m.digest⟩)
      (some (listRepositoryTrustedKeys w.trusted tenantID repoID)) = .ok () := by
  unfold World.getManifest at h
  simp only at h
  split at h
  · cases h
  · split at h
    · cases h
    · rename_i m' _
      cases hgate : checkSignatureAdmission (getRepository w.settings tenantID repoID)
        (w.signatures i ⟨tenantID, m'.digest⟩)
        (some (listRepositoryTrustedKeys w.trusted tenantID repoID)) with
      | error e =>
        rw [hgate] at h
        cases h
      | ok u =>
        rw [hgate] at h
        cases hcvss : checkCVSSAdmission (getRepository w.settings tenantID repoID)
          (scan m'.digest) with
        | error e =>
          rw [hcvss] at h
          cases h
        | ok u' =>
          rw [hcvss] at h
          cases h
          exact hgate

theorem Attested.honest {ι : Type*} {w : World ι} (h : Attested w.signer w.computed) :
    w.AdmissionHonest := by
  intro store scan i tenantID repoID reference m r hok hrepo hreq hkeys ht hd
  obtain ⟨sigs, hsigs⟩ := signatures_isSome (w := w) (i := i) (k := ⟨tenantID, m.digest⟩) ht hd
  have hgate := getManifest_ok hok
  rw [hrepo, hsigs] at hgate
  obtain ⟨sig, hsig, hkey⟩ := checkSignatureAdmission_ok hreq hkeys hgate
  exact ⟨sig.keyID, hkey, signatures_vouched h hsigs sig hsig⟩

section Runs

variable {ι : Type*} {signers : ι → ActiveSigner}

theorem attested_step [DecidableEq ι] {w : World ι} {a : Action ι}
    (h : Attested w.signer w.computed) (hkeys : w.KeysMatch signers a) :
    Attested (w.step signers a).signer (w.step signers a).computed := by
  cases a with
  | signer op =>
    cases op with
    | signManifest i reach nonce now req => exact h.leave (signManifest_vouched h)
    | verifyManifest i reach req => exact h.lookup (verifyManifest_warmed ..)
    | listSignatures i reach k => exact h.lookup (listSignatures_warmed ..)
    | setProxyCacheSignPolicy reach p =>
      exact ⟨h.rows.mono, fun i => (h.caches i).mono⟩
    | cachePopulated i reach nonce now p => exact h.leave (handle_vouched h hkeys)
    | restart i =>
      refine h.leave ⟨?_, h.rows.mono⟩
      intro k r hr
      exact absurd hr not_mem_nil
  | updateRepositorySignaturePolicy | addRepositoryTrustedKey | removeRepositoryTrustedKey =>
    exact h

theorem fresh_attested (policies : Policies) (settings : Settings) :
    Attested (World.fresh (ι := ι) policies settings).signer
      (World.fresh (ι := ι) policies settings).computed where
  rows _ hrow := absurd hrow not_mem_nil
  caches _ _ _ hr := absurd hr not_mem_nil

/-- **Admission by trusted keys**, if the policy names the key of its process. -/
theorem admission_honest_of_keys_match [DecidableEq ι] (signers : ι → ActiveSigner)
    (policies : Policies) (settings : Settings) (acts : List (Action ι))
    (h : Guarded (World.step signers) (World.KeysMatch signers) (World.fresh policies settings)
      acts) : (run (World.step signers) (World.fresh policies settings) acts).AdmissionHonest := by
  apply Attested.honest
  exact run_invariant (I := fun w => Attested w.signer w.computed)
    (fun w a hw hkeys => attested_step hw hkeys) (fresh_attested policies settings) h

end Runs

def sampleDigest : String :=
  "sha256:44136fa355b3678a1146ad16f7e8649e94fb4fc21fe77e8310c060f61caaff8a"

def sampleStore : Store :=
  (Store.fresh Table.empty (.single ⟨"r", "o", "acme", "app", false, 0, 0⟩)).apply
    indexDocuments (.putManifest 0 "acme" "r" sampleDigest mediaTypeOCIManifest [123, 125])

def sampleSettings : Settings := .single ⟨"r", "acme", true, none⟩

def samplePayload : CachePopulatedPayload := ⟨"acme", "hub", "library/app", sampleDigest⟩

def autoSign (keyID : String) : List (Action Unit) :=
  [.addRepositoryTrustedKey ⟨"r", "acme", keyID⟩,
    .signer (.setProxyCacheSignPolicy allReachable ⟨"acme", "hub", true, keyID⟩),
    .signer (.cachePopulated () allReachable 0 1000 samplePayload)]

def afterAutoSign (keyID : String) : World Unit :=
  run (World.step fun _ => sampleSigner) (World.fresh Table.empty sampleSettings) (autoSign keyID)

theorem untrusted_key_admitted :
    ((afterAutoSign "offline-root").getManifest sampleStore (fun _ => none) () "acme" "r"
      sampleDigest).map Manifest.digest = .ok sampleDigest ∧
    listRepositoryTrustedKeys (afterAutoSign "offline-root").trusted "acme" "r" = ["offline-root"] ∧
    (afterAutoSign "offline-root").computed = [(⟨"acme", sampleDigest⟩, "k1")] ∧
    ¬ (afterAutoSign "offline-root").AdmissionHonest := by
  have hpull : ∃ m, (afterAutoSign "offline-root").getManifest sampleStore (fun _ => none) ()
      "acme" "r" sampleDigest = .ok m ∧ m.digest = sampleDigest := by
    refine ⟨⟨0, "r", "acme", sampleDigest, mediaTypeOCIManifest, [123, 125], 0, 0, none, none⟩,
      ?_, rfl⟩
    decide +kernel
  have hcomputed : (afterAutoSign "offline-root").computed = [(⟨"acme", sampleDigest⟩, "k1")] := by
    decide +kernel
  have htrusted : listRepositoryTrustedKeys (afterAutoSign "offline-root").trusted "acme" "r" =
      ["offline-root"] := by
    decide +kernel
  obtain ⟨m, hm, hdigest⟩ := hpull
  refine ⟨by rw [hm, ← hdigest]; rfl, htrusted, hcomputed, ?_⟩
  intro hhonest
  obtain ⟨keyID, hkey, hmade⟩ := hhonest sampleStore (fun _ => none) () "acme" "r" sampleDigest m
    ⟨"r", "acme", true, none⟩ hm (by decide +kernel) rfl (by rw [htrusted]; simp) (by decide)
    (by rw [hdigest]; decide)
  rw [htrusted, mem_singleton] at hkey
  rw [hcomputed, hkey, mem_singleton] at hmade
  have hkeys : "offline-root" = "k1" := congrArg Prod.snd hmade
  exact absurd hkeys (by decide)

theorem own_key_admitted :
    ∃ keyID ∈ listRepositoryTrustedKeys (afterAutoSign "k1").trusted "acme" "r",
      ((⟨"acme", sampleDigest⟩ : RecordKey), keyID) ∈ (afterAutoSign "k1").computed :=
  admission_honest_of_keys_match (fun _ => sampleSigner) Table.empty sampleSettings
    (autoSign "k1") ⟨trivial, trivial, by unfold World.KeysMatch; decide +kernel, trivial⟩
    sampleStore (fun _ => none) () "acme" "r" sampleDigest
    ⟨0, "r", "acme", sampleDigest, mediaTypeOCIManifest, [123, 125], 0, 0, none, none⟩
    ⟨"r", "acme", true, none⟩ (by decide +kernel) (by decide +kernel) rfl (by decide +kernel)
    (by decide) (by decide)

end OciJanus.Core.SignatureAdmission
