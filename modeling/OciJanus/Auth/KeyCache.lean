import OciJanus.Auth.ApiKey
import OciJanus.Verified.Run
import Mathlib.Logic.Function.Basic

/-!
# The cache of verified API keys

A hit stands for the Argon2 verification alone. The hash of a key is written once, and ids are not
used again.
-/

namespace OciJanus.Auth.KeyCache

open Auth.ApiKey Verified.Run List

structure CacheKey where
  (keyID secretHash : String)
  deriving DecidableEq

/-- The tables, the ids of all keys so far, and the cache in Redis. -/
structure World where
  rows : String → Option APIKey
  serviceAccounts : String → Option ServiceAccount
  issued : List String
  cache : List CacheKey
  now : Int

inductive Action where
  | createKey (key : APIKey)
  | updateKey (key : APIKey)
  | deleteKey (id : String)
  | setServiceAccount (id : String) (sa : Option ServiceAccount)
  | tick (d : Nat)
  | validate (opts : ValidateAPIKeyOpts) (reads writes : Bool)
  | evict (k : CacheKey)

section
variable (argon2 : String → String → Option Bool) (sha256 : String → String) (w : World)

def World.tables : Tables := ⟨fun id => (w.rows id).filter (·.isActive), w.serviceAccounts⟩

def apiKeyCacheKey (opts : ValidateAPIKeyOpts) : CacheKey := ⟨opts.keyID, sha256 opts.rawSecret⟩

def World.hit (opts : ValidateAPIKeyOpts) (reads : Bool) : Bool :=
  reads && w.cache.contains (apiKeyCacheKey sha256 opts)

def World.validate (opts : ValidateAPIKeyOpts) (reads : Bool) : Except KeyError ValidatedKey :=
  validateAPIKey argon2 w.tables (w.hit sha256 opts reads) opts w.now

def World.setRow (id : String) (row : Option APIKey) : World :=
  { w with rows := Function.update w.rows id row }

def step : Action → World
  | .createKey key =>
    if key.id ∈ w.issued then w
    else { w.setRow key.id (some key) with issued := key.id :: w.issued }
  | .updateKey key =>
    match w.rows key.id with
    | none => w
    | some old => w.setRow key.id (some { key with keyHash := old.keyHash })
  | .deleteKey id => w.setRow id none
  | .setServiceAccount id sa =>
    { w with serviceAccounts := Function.update w.serviceAccounts id sa }
  | .tick d => { w with now := w.now + d }
  | .validate opts reads writes =>
    -- Only the cold path stores, and only what it accepts.
    match w.hit sha256 opts reads, w.validate argon2 sha256 opts reads with
    | false, .ok _ =>
      if writes then { w with cache := apiKeyCacheKey sha256 opts :: w.cache } else w
    | _, _ => w
  | .evict k => { w with cache := w.cache.filter (· ≠ k) }

def Verified (k : CacheKey) : Prop :=
  k.keyID ∈ w.issued ∧ ∃ secret, k.secretHash = sha256 secret ∧
    ∀ key ∈ w.rows k.keyID, argon2 secret key.keyHash = some true

structure Sound : Prop where
  issued : ∀ id, ∀ key ∈ w.rows id, id ∈ w.issued
  verified : ∀ k ∈ w.cache, Verified argon2 sha256 w k

end

def World.empty (now : Int) : World := ⟨fun _ => none, fun _ => none, [], [], now⟩

variable {argon2 : String → String → Option Bool} {sha256 : String → String} {w : World}

theorem Sound.of_rows {w' : World} (h : Sound argon2 sha256 w) (hissued : w'.issued = w.issued)
    (hrows : ∀ id, ∀ key' ∈ w'.rows id, ∃ key ∈ w.rows id, key.keyHash = key'.keyHash)
    (hcache : ∀ k ∈ w'.cache, Verified argon2 sha256 w k) : Sound argon2 sha256 w' := by
  constructor
  · intro id key' hkey'
    obtain ⟨key, hkey, -⟩ := hrows id key' hkey'
    exact hissued ▸ h.issued id key hkey
  · intro k hk
    obtain ⟨hid, secret, hsecret, hverified⟩ := hcache k hk
    refine ⟨hissued ▸ hid, secret, hsecret, fun key' hkey' => ?_⟩
    obtain ⟨key, hkey, hhash⟩ := hrows _ key' hkey'
    exact hhash ▸ hverified key hkey

theorem Sound.create (h : Sound argon2 sha256 w) {key : APIKey} (hnew : key.id ∉ w.issued) :
    Sound argon2 sha256 { w.setRow key.id (some key) with issued := key.id :: w.issued } := by
  constructor
  · intro id key' hkey'
    rcases update_cases hkey' with ⟨rfl, -⟩ | ⟨-, hold⟩
    · exact mem_cons_self
    · exact mem_cons_of_mem _ (h.issued id key' hold)
  · intro k hk
    obtain ⟨hid, secret, hsecret, hverified⟩ := h.verified k hk
    refine ⟨mem_cons_of_mem _ hid, secret, hsecret, fun key' hkey' => ?_⟩
    rcases update_cases hkey' with ⟨heq, -⟩ | ⟨-, hold⟩
    · exact absurd (heq ▸ hid) hnew
    · exact hverified key' hold

theorem argon2_of_validate_cold {t : Tables} {opts : ValidateAPIKeyOpts} {now : Int}
    {vk : ValidatedKey} (h : validateAPIKey argon2 t false opts now = .ok vk) :
    ∃ key ∈ t.apiKeys opts.keyID, argon2 opts.rawSecret key.keyHash = some true := by
  unfold validateAPIKey at h
  cases hkey : t.apiKeys opts.keyID with
  | none =>
    rw [hkey] at h
    cases h
  | some key =>
    refine ⟨key, rfl, ?_⟩
    simp only [hkey, Bool.false_eq_true, if_false, validateCold] at h
    split at h
    · cases h
    · cases h
    · assumption

theorem Sound.step (h : Sound argon2 sha256 w) (a : Action) :
    Sound argon2 sha256 (step argon2 sha256 w a) := by
  have hsame : ∀ id, ∀ key ∈ w.rows id, ∃ key' ∈ w.rows id, key'.keyHash = key.keyHash :=
    fun _ key hkey => ⟨key, hkey, rfl⟩
  cases a with
  | createKey key =>
    rw [KeyCache.step]
    split_ifs with hold
    · exact h
    · exact h.create hold
  | updateKey key =>
    rw [KeyCache.step]
    split
    · exact h
    · next old hold =>
      refine h.of_rows rfl (fun id key' hkey' => ?_) h.verified
      rcases update_cases hkey' with ⟨rfl, hnew⟩ | ⟨-, hrow⟩
      · cases hnew
        exact ⟨old, hold, rfl⟩
      · exact ⟨key', hrow, rfl⟩
  | deleteKey id =>
    refine h.of_rows rfl (fun id' key' hkey' => ?_) h.verified
    rcases update_cases hkey' with ⟨-, hnone⟩ | ⟨-, hrow⟩
    · cases hnone
    · exact ⟨key', hrow, rfl⟩
  | setServiceAccount id sa => exact h.of_rows rfl hsame h.verified
  | tick d => exact h.of_rows rfl hsame h.verified
  | validate opts reads writes =>
    rw [KeyCache.step]
    split
    · next vk hmiss hvalid =>
      split_ifs
      · refine h.of_rows rfl hsame fun k hk => ?_
        rcases mem_cons.mp hk with rfl | hk
        · rw [World.validate, hmiss] at hvalid
          obtain ⟨key, hkey, hargon⟩ := argon2_of_validate_cold hvalid
          obtain ⟨hrow, -⟩ := Option.mem_filter_iff.mp hkey
          refine ⟨h.issued _ key hrow, opts.rawSecret, rfl, fun key' hkey' => ?_⟩
          exact Option.mem_unique hrow hkey' ▸ hargon
        · exact h.verified k hk
      · exact h
    · exact h
  | evict k =>
    exact h.of_rows rfl hsame fun k' hk' => h.verified k' (mem_of_mem_filter hk')

theorem validateAPIKey_hit {t : Tables} {opts : ValidateAPIKeyOpts} {now : Int}
    (h : ∀ key ∈ t.apiKeys opts.keyID, argon2 opts.rawSecret key.keyHash = some true) :
    validateAPIKey argon2 t true opts now = validateAPIKey argon2 t false opts now := by
  unfold validateAPIKey
  cases hkey : t.apiKeys opts.keyID with
  | none => rfl
  | some key =>
    simp only [if_true, Bool.false_eq_true, if_false, validateCold, h key hkey,
      applyKeyChecksFromCache_eq]
    cases checkRow key now with
    | error e => rfl
    | ok _ => cases ownerBranch t key opts.requestTenantID <;> rfl

/-- **The cache is transparent**: after any history, a call answers as the cold path does. -/
theorem cache_transparent (argon2 : String → String → Option Bool) (sha256 : String → String)
    (hsha : Function.Injective sha256) (start : Int) (acts : List Action)
    (opts : ValidateAPIKeyOpts) (reads : Bool) :
    let w := run (step argon2 sha256) (World.empty start) acts
    w.validate argon2 sha256 opts reads = validateAPIKey argon2 w.tables false opts w.now := by
  intro w
  have hstep : ∀ w a, Sound argon2 sha256 w → True → Sound argon2 sha256 (step argon2 sha256 w a) :=
    fun _ a h _ => h.step a
  have hstart : Sound argon2 sha256 (World.empty start) := ⟨nofun, nofun⟩
  have hguard : Guarded (step argon2 sha256) (fun _ _ => True) (World.empty start) acts :=
    guarded_of_forall fun _ _ => trivial
  have hsound : Sound argon2 sha256 w := run_invariant hstep hstart hguard
  rw [World.validate]
  cases hhit : w.hit sha256 opts reads with
  | false => rfl
  | true =>
    have hmem := contains_iff_mem.mp (Bool.and_eq_true_iff.mp hhit).2
    obtain ⟨-, secret, hsecret, hverified⟩ := hsound.verified _ hmem
    refine validateAPIKey_hit fun key hkey => ?_
    rw [hsha hsecret]
    exact hverified key (Option.mem_filter_iff.mp hkey).1

/-! A verified key whose scopes shrink while its entry stands. -/

def sampleKey : APIKey := ⟨"k", "t", some "u", none, "ci", "s", ["pull", "push"], none, true⟩

def sampleVerify (secret hash : String) : Option Bool := some (secret == hash)

def sampleRun : List Action :=
  [.createKey sampleKey, .validate ⟨"k", "s", none⟩ true true,
    .updateKey { sampleKey with scopes := ["pull"] }]

theorem narrowed_key_transparent :
    let w := run (step sampleVerify id) (World.empty 0) sampleRun
    w.hit id ⟨"k", "s", none⟩ true = true ∧
      (w.validate sampleVerify id ⟨"k", "s", none⟩ true).toOption.map (·.effectiveScopes) =
        some ["pull"] ∧
      w.validate sampleVerify id ⟨"k", "s", none⟩ true =
        validateAPIKey sampleVerify w.tables false ⟨"k", "s", none⟩ w.now :=
  ⟨by decide, by decide,
    cache_transparent sampleVerify id Function.injective_id 0 sampleRun ⟨"k", "s", none⟩ true⟩

end OciJanus.Auth.KeyCache
