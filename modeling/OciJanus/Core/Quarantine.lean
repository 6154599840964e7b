import OciJanus.Core.UploadHandlers
import OciJanus.Verified.KeyedTable

/-!
# Quarantine behind the response cache

A call that read the old row before an update may store it after the delete. Every call to the
cache and every statement is one step.
-/

namespace OciJanus.Core.Quarantine

open Core.UploadHandlers (matchesDigestRE)
open Verified GoStrings KeyedTable Run Function

def isDigest (reference : String) : Bool := hasPrefix reference "sha256:"

structure Digest where
  text : String
  isDigest : isDigest text = true
  deriving DecidableEq

abbrev Key := String × String × String

structure ManifestRow where
  (tenantID repoID : String)
  digest : Digest
  quarantined : Bool
  quarantineReason : Option String
  quarantinedAt : Option Int
  quarantinedBy : Option String
  deriving DecidableEq

def ManifestRow.key (m : ManifestRow) : Key := (m.tenantID, m.repoID, m.digest.text)

structure TagRow where
  (tenantID repoID name : String)
  manifestDigest : Digest

def TagRow.key (t : TagRow) : Key := (t.tenantID, t.repoID, t.name)

structure Update where
  (tenantID repoID manifestDigest : String)
  quarantined : Bool
  (reason quarantinedBy : String)

def Update.key (u : Update) : Key := (u.tenantID, u.repoID, u.manifestDigest)

def Update.valid (u : Update) : Bool :=
  u.tenantID ≠ "" ∧ u.repoID ≠ "" ∧ u.manifestDigest ≠ "" ∧ ¬ (u.quarantined = true ∧ u.reason = "")

def Update.rewrite (u : Update) (now : Int) (m : ManifestRow) : ManifestRow :=
  if u.quarantined then
    { m with
      quarantined := true
      quarantineReason := some u.reason
      quarantinedAt := m.quarantinedAt <|> some now
      quarantinedBy := m.quarantinedBy <|> some u.quarantinedBy }
  else
    { m with
      quarantined := false
      quarantineReason := none
      quarantinedAt := none
      quarantinedBy := none }

theorem Update.rewrite_key (u : Update) (now : Int) (m : ManifestRow) :
    (u.rewrite now m).key = m.key := by
  unfold Update.rewrite
  split <;> rfl

@[simp] theorem Update.rewrite_quarantined (u : Update) (now : Int) (m : ManifestRow) :
    (u.rewrite now m).quarantined = u.quarantined := by
  unfold Update.rewrite
  cases h : u.quarantined <;> simp

inductive Reply where
  | served
  | notFound
  | unavailableForLegalReasons (reason : String)
  deriving DecidableEq

def handleGetManifest (m : ManifestRow) : Reply :=
  if m.quarantined then
    .unavailableForLegalReasons
      (if m.quarantineReason.getD "" = "" then "manifest quarantined by scan policy"
      else m.quarantineReason.getD "")
  else .served

structure Get where
  key : Key
  pull : Bool
  start : Nat
  deriving DecidableEq

inductive Pc where
  | idle
  | lookupTag (key : Key) (start : Nat)
  | queryTag (key : Key) (start : Nat)
  | cacheTag (key : Key) (t : TagRow) (start : Nat)
  | lookupManifest (g : Get)
  | resolveTag (g : Get)
  | queryManifest (g : Get) (digest : String)
  | cacheManifest (g : Get) (m : ManifestRow)
  | answered (g : Get) (m : ManifestRow)
  | putTag (t : TagRow)
  | updateRow (u : Update)
  | listTagNames (u : Update) (cleared : Nat)
  | bust (u : Update) (cleared : Nat) (names : List String)
  | updated (u : Update) (cleared : Nat)

inductive Request where
  | pull (tenantID repoID reference : String)
  | getManifest (tenantID repoID reference : String)
  | putTag (t : TagRow)
  | updateManifestQuarantine (u : Update)

/-- From `clock` on: what the proofs look back at. -/
structure System (n : Nat) where
  manifests : Table ManifestRow Key ManifestRow.key
  tags : Table TagRow Key TagRow.key
  now : Int
  manifestCache : ExpiringStore.Store Key ManifestRow
  tagCache : ExpiringStore.Store Key TagRow
  pcs : Fin n → Pc
  clock : Nat
  cleared : Key → Nat
  busted : Key → Bool
  settled : Key → Option Nat

def manifestTTL : Int := 5 * 60 * 1000000000

def tagTTL : Int := 30 * 1000000000

def afterTag (key : Key) (t : TagRow) (start : Nat) : Pc :=
  .lookupManifest ⟨(key.1, key.2.1, t.manifestDigest.text), true, start⟩

def Request.begin (start : Nat) : Request → Pc
  | .pull t r reference =>
    if matchesDigestRE reference then .lookupManifest ⟨(t, r, reference), true, start⟩
    else .lookupTag (t, r, reference) start
  | .getManifest t r reference => .lookupManifest ⟨(t, r, reference), false, start⟩
  | .putTag t => .putTag t
  | .updateManifestQuarantine u => if u.valid then .updateRow u else .idle

def delAll (c : ExpiringStore.Store Key ManifestRow) (keys : List Key) :
    ExpiringStore.Store Key ManifestRow :=
  keys.foldl ExpiringStore.Store.del c

namespace System

variable {n : Nat} (s : System n)

def goto (i : Fin n) (pc : Pc) : System n := { s with pcs := update s.pcs i pc }

def tagNames (u : Update) : List String :=
  (s.tags.rows.filter fun t =>
    t.repoID = u.repoID ∧ t.tenantID = u.tenantID ∧ t.manifestDigest.text = u.manifestDigest).map
      (·.name)

def writeRow (u : Update) : System n :=
  { s with
    manifests := s.manifests.modify u.key (u.rewrite s.now) (u.rewrite_key s.now)
    cleared := if u.quarantined then s.cleared
      else update s.cleared u.key (s.cleared u.key + 1)
    busted := if u.quarantined then s.busted else update s.busted u.key false
    settled := if u.quarantined then s.settled else update s.settled u.key none }

def bust (u : Update) (cleared : Nat) (names : List String) : System n :=
  { s with
    manifestCache := delAll s.manifestCache
      (u.key :: names.map fun name => (u.tenantID, u.repoID, name))
    busted := if u.quarantined ∧ s.cleared u.key = cleared then
        update s.busted u.key true
      else s.busted }

def settle (u : Update) (cleared : Nat) : System n :=
  { s with
    settled := if u.quarantined ∧ s.cleared u.key = cleared ∧ s.settled u.key = none then
        update s.settled u.key (some (s.clock + 1))
      else s.settled }

def advance (i : Fin n) : System n :=
  match s.pcs i with
  | .idle => s
  | .lookupTag key start =>
    match s.tagCache.get s.now key with
    | some t => s.goto i (afterTag key t start)
    | none => s.goto i (.queryTag key start)
  | .queryTag key start =>
    match s.tags.get key with
    | some t => s.goto i (.cacheTag key t start)
    | none => s.goto i .idle
  | .cacheTag key t start =>
    { s with tagCache := s.tagCache.set s.now key t tagTTL }.goto i (afterTag key t start)
  | .lookupManifest g =>
    match s.manifestCache.get s.now g.key with
    | some m => s.goto i (.answered g m)
    | none =>
      if isDigest g.key.2.2 then s.goto i (.queryManifest g g.key.2.2)
      else s.goto i (.resolveTag g)
  | .resolveTag g =>
    match s.tags.get g.key with
    | some t => s.goto i (.queryManifest g t.manifestDigest.text)
    | none => s.goto i .idle
  | .queryManifest g digest =>
    match s.manifests.get (g.key.1, g.key.2.1, digest) with
    | some m => s.goto i (.cacheManifest g m)
    | none => s.goto i .idle
  | .cacheManifest g m =>
    { s with manifestCache := s.manifestCache.set s.now g.key m manifestTTL }.goto i (.answered g m)
  | .answered _ _ => s.goto i .idle
  | .putTag t =>
    { s with
      tags := (s.tags.remove fun old => old.key = t.key).insertNew t }.goto i .idle
  | .updateRow u =>
    match s.manifests.get u.key with
    | some _ => (s.writeRow u).goto i (.listTagNames u ((s.writeRow u).cleared u.key))
    | none => s.goto i .idle
  | .listTagNames u cleared => s.goto i (.bust u cleared (s.tagNames u))
  | .bust u cleared names => (s.bust u cleared names).goto i (.updated u cleared)
  | .updated u cleared => (s.settle u cleared).goto i .idle

end System

inductive Action (n : Nat) where
  | tick (elapsed : Nat)
  | call (i : Fin n) (req : Request)
  | advance (i : Fin n)

def Pc.isIdle : Pc → Bool
  | .idle => true
  | _ => false

namespace System

variable {n : Nat}

def act (s : System n) : Action n → System n
  | .tick elapsed => { s with now := s.now + elapsed }
  | .call i req => if (s.pcs i).isIdle then s.goto i (req.begin s.clock) else s
  | .advance i => s.advance i

def step (s : System n) (a : Action n) : System n := { s.act a with clock := s.clock + 1 }

def fresh (manifests : Table ManifestRow Key ManifestRow.key) (tags : Table TagRow Key TagRow.key)
    (now : Int) : System n where
  manifests := manifests
  tags := tags
  now := now
  manifestCache := .empty
  tagCache := .empty
  pcs _ := .idle
  clock := 0
  cleared _ := 0
  busted _ := false
  settled _ := none

end System

section Properties

variable {n : Nat}

def System.answer (s : System n) (i : Fin n) : Option (Get × Reply) :=
  match s.pcs i with
  | .queryManifest g digest =>
    match s.manifests.get (g.key.1, g.key.2.1, digest) with
    | some _ => none
    | none => some (g, .notFound)
  | .answered g m => some (g, handleGetManifest m)
  | _ => none

def RefusesQuarantined (s : System n) (a : Action n) : Prop :=
  ∀ i g reply, a = .advance i → s.answer i = some (g, reply) → g.pull = true →
    ∀ j, s.settled g.key = some j → j ≤ g.start →
      ∃ reason, reply = .unavailableForLegalReasons reason

def StoresNothingStale (s : System n) (a : Action n) : Prop :=
  ∀ i g m, a = .advance i → s.pcs i = .cacheManifest g m → isDigest g.key.2.2 = true →
    s.busted g.key = true → m.quarantined = true

def System.stores (s : System n) : Action n → Option (Key × ManifestRow)
  | .advance i =>
    match s.pcs i with
    | .cacheManifest g m => if isDigest g.key.2.2 then some (g.key, m) else none
    | _ => none
  | _ => none

theorem storesNothingStale_iff (s : System n) (a : Action n) :
    StoresNothingStale s a ↔ ∀ p ∈ s.stores a, s.busted p.1 = true → p.2.quarantined = true := by
  constructor
  · intro h p hp hbusted
    cases a with
    | tick | call => cases hp
    | advance i =>
      unfold System.stores at hp
      cases hpc : s.pcs i with
      | cacheManifest g m =>
        simp only [hpc, Option.mem_def, Option.ite_none_right_eq_some, Option.some.injEq] at hp
        rw [← hp.2] at hbusted ⊢
        exact h i g m rfl hpc hp.1 hbusted
      | _ => simp [hpc] at hp
  · rintro h i g m rfl hpc hdigest hbusted
    exact h (g.key, m) (by simp [System.stores, hpc, hdigest]) hbusted

instance (s : System n) (a : Action n) : Decidable (StoresNothingStale s a) :=
  decidable_of_iff _ (storesNothingStale_iff s a).symm

end Properties

section Invariant

variable {n : Nat}

def Flagged (s : System n) (k : Key) : Prop :=
  ∃ m, s.manifests.get k = some m ∧ m.quarantined = true

def Get.Wf (clock : Nat) (g : Get) : Prop :=
  g.start ≤ clock ∧ (g.pull = true → isDigest g.key.2.2 = true)

def Informed (s : System n) (g : Get) (m : ManifestRow) : Prop :=
  isDigest g.key.2.2 = true → ∀ j, s.settled g.key = some j → j ≤ g.start → m.quarantined = true

def PcInv (s : System n) : Pc → Prop
  | .idle => True
  | .lookupTag _ start => start ≤ s.clock
  | .queryTag _ start => start ≤ s.clock
  | .cacheTag _ _ start => start ≤ s.clock
  | .lookupManifest g => g.Wf s.clock
  | .resolveTag g => g.Wf s.clock ∧ isDigest g.key.2.2 = false
  | .queryManifest g digest => g.Wf s.clock ∧ (isDigest g.key.2.2 = true → digest = g.key.2.2)
  | .cacheManifest g m => g.Wf s.clock ∧ Informed s g m
  | .answered g m => g.Wf s.clock ∧ Informed s g m
  | .putTag _ => True
  | .updateRow _ => True
  | .listTagNames u cleared =>
    cleared ≤ s.cleared u.key ∧ (u.quarantined = true → s.cleared u.key = cleared → Flagged s u.key)
  | .bust u cleared _ =>
    cleared ≤ s.cleared u.key ∧ (u.quarantined = true → s.cleared u.key = cleared → Flagged s u.key)
  | .updated u cleared =>
    cleared ≤ s.cleared u.key ∧
      (u.quarantined = true → s.cleared u.key = cleared → s.busted u.key = true)

structure Inv (s : System n) : Prop where
  row : ∀ k, s.busted k = true → Flagged s k
  cached : ∀ k e, s.manifestCache.entry k = some e → isDigest k.2.2 = true →
    s.busted k = true → e.value.quarantined = true
  settled : ∀ k j, s.settled k = some j → s.busted k = true ∧ j ≤ s.clock
  pcs : ∀ i, PcInv s (s.pcs i)

structure Keeps (s s' : System n) : Prop where
  clock : s.clock ≤ s'.clock
  cleared : ∀ k, s.cleared k ≤ s'.cleared k
  flagged : ∀ k, s.cleared k = s'.cleared k → Flagged s k → Flagged s' k
  busted : ∀ k, s.cleared k = s'.cleared k → s.busted k = true → s'.busted k = true
  settled : ∀ k j, s'.settled k = some j → s.settled k = some j ∨ s.clock < j

variable {s' : System n}

theorem PcInv.mono {s : System n} (h : Keeps s s') {pc : Pc} (hpc : PcInv s pc) : PcInv s' pc := by
  have hwf : ∀ g : Get, g.Wf s.clock → g.Wf s'.clock :=
    fun g hg => ⟨hg.1.trans h.clock, hg.2⟩
  have hinformed : ∀ (g : Get) m, g.Wf s.clock → Informed s g m → Informed s' g m := by
    intro g m hg hm hdigest j hj hstart
    rcases h.settled g.key j hj with hold | hnew
    · exact hm hdigest j hold hstart
    · -- It was settled only now, after the request came.
      have hlate := hg.1
      omega
  have hcleared : ∀ (k : Key) (c : Nat), c ≤ s.cleared k → s'.cleared k = c →
      s.cleared k = s'.cleared k := by
    intro k c hle heq
    have hmono := h.cleared k
    omega
  cases pc with
  | idle | putTag | updateRow => trivial
  | lookupTag | queryTag | cacheTag => exact Nat.le_trans hpc h.clock
  | lookupManifest g => exact hwf g hpc
  | resolveTag g => exact ⟨hwf g hpc.1, hpc.2⟩
  | queryManifest g digest => exact ⟨hwf g hpc.1, hpc.2⟩
  | cacheManifest g m => exact ⟨hwf g hpc.1, hinformed g m hpc.1 hpc.2⟩
  | answered g m => exact ⟨hwf g hpc.1, hinformed g m hpc.1 hpc.2⟩
  | listTagNames u c =>
    refine ⟨hpc.1.trans (h.cleared _), fun hq hc => ?_⟩
    have hsame := hcleared u.key c hpc.1 hc
    exact h.flagged _ hsame (hpc.2 hq (hsame.trans hc))
  | bust u c names =>
    refine ⟨hpc.1.trans (h.cleared _), fun hq hc => ?_⟩
    have hsame := hcleared u.key c hpc.1 hc
    exact h.flagged _ hsame (hpc.2 hq (hsame.trans hc))
  | updated u c =>
    refine ⟨hpc.1.trans (h.cleared _), fun hq hc => ?_⟩
    have hsame := hcleared u.key c hpc.1 hc
    exact h.busted _ hsame (hpc.2 hq (hsame.trans hc))

theorem pcInv_update {s : System n} (h : Inv s) (hkeeps : Keeps s s') {i : Fin n} {pc : Pc}
    (hpcs : s'.pcs = update s.pcs i pc) (hpc : PcInv s' pc) (j : Fin n) :
    PcInv s' (s'.pcs j) := by
  rw [hpcs]
  by_cases hj : j = i
  · rw [hj, update_self]
    exact hpc
  · rw [update_of_ne hj]
    exact (h.pcs j).mono hkeeps

structure Same (s s' : System n) : Prop where
  manifests : s'.manifests = s.manifests
  manifestCache : s'.manifestCache = s.manifestCache
  cleared : s'.cleared = s.cleared
  busted : s'.busted = s.busted
  settled : s'.settled = s.settled
  clock : s.clock ≤ s'.clock

theorem Same.keeps {s : System n} (h : Same s s') : Keeps s s' where
  clock := h.clock
  cleared k := by rw [h.cleared]
  flagged k _ hk := by
    unfold Flagged
    rw [h.manifests]
    exact hk
  busted k _ hk := by rw [h.busted]; exact hk
  settled k j hj := by rw [h.settled] at hj; exact Or.inl hj

theorem Inv.of_same {s : System n} (h : Inv s) (hsame : Same s s')
    (hpcs : ∀ j, PcInv s' (s'.pcs j)) : Inv s' where
  row k hk := by
    rw [hsame.busted] at hk
    exact hsame.keeps.flagged k (by rw [hsame.cleared]) (h.row k hk)
  cached k e he hdigest := by
    rw [hsame.manifestCache] at he
    rw [hsame.busted]
    exact h.cached k e he hdigest
  settled k j hj := by
    rw [hsame.settled] at hj
    rw [hsame.busted]
    exact ⟨(h.settled k j hj).1, (h.settled k j hj).2.trans hsame.clock⟩
  pcs := hpcs

end Invariant

section Steps

variable {n : Nat} {s : System n}

variable {g : Get} {m : ManifestRow} {u : Update} {k : Key} {i : Fin n}

theorem Inv.informed_of_cached (h : Inv s)
    (hm : s.manifestCache.get s.now g.key = some m) : Informed s g m := by
  intro hdigest j hj _
  obtain ⟨d, he, _⟩ := ExpiringStore.Store.get_eq_some_iff.mp hm
  exact h.cached g.key _ he hdigest (h.settled g.key j hj).1

theorem Inv.informed_of_row (h : Inv s) {digest : String}
    (hm : s.manifests.get (g.key.1, g.key.2.1, digest) = some m)
    (hdigest : isDigest g.key.2.2 = true → digest = g.key.2.2) : Informed s g m := by
  intro hd j hj _
  rw [hdigest hd] at hm
  obtain ⟨m', hm', hflag⟩ := h.row g.key (h.settled g.key j hj).1
  have hrow : s.manifests.get g.key = some m := hm
  rw [hm', Option.some.injEq] at hrow
  rw [← hrow]
  exact hflag

theorem flagged_writeRow (hq : u.quarantined = true)
    (hrow : (s.manifests.get u.key).isSome) : Flagged (s.writeRow u) u.key := by
  obtain ⟨m, hm⟩ := Option.isSome_iff_exists.mp hrow
  refine ⟨u.rewrite s.now m, ?_, by rw [Update.rewrite_quarantined, hq]⟩
  show (s.manifests.modify u.key (u.rewrite s.now) (u.rewrite_key s.now)).get u.key = _
  rw [Table.get_modify_self, hm]
  rfl

theorem flagged_writeRow_ne (hk : k ≠ u.key) (h : Flagged s k) : Flagged (s.writeRow u) k := by
  obtain ⟨m, hm, hflag⟩ := h
  refine ⟨m, ?_, hflag⟩
  show (s.manifests.modify u.key (u.rewrite s.now) (u.rewrite_key s.now)).get k = _
  rw [Table.get_modify_ne hk, hm]

theorem writeRow_history (u : Update) (k : Key) :
    (k = u.key ∧ u.quarantined = false ∧ (s.writeRow u).cleared k = s.cleared k + 1 ∧
        (s.writeRow u).busted k = false ∧ (s.writeRow u).settled k = none) ∨
      ((s.writeRow u).cleared k = s.cleared k ∧ (s.writeRow u).busted k = s.busted k ∧
        (s.writeRow u).settled k = s.settled k) := by
  by_cases hq : u.quarantined = true
  · exact Or.inr (by simp [System.writeRow, hq])
  by_cases hk : k = u.key
  · exact Or.inl (by simp [System.writeRow, hq, hk])
  · exact Or.inr (by simp [System.writeRow, hq, update_of_ne hk])

theorem flagged_writeRow_of_cleared
    (hsame : s.cleared k = (s.writeRow u).cleared k) (h : Flagged s k) :
    Flagged (s.writeRow u) k := by
  by_cases hk : k = u.key
  · rw [hk] at h hsame ⊢
    obtain ⟨m, hm, _⟩ := h
    cases hq : u.quarantined with
    | true => exact flagged_writeRow hq (by rw [hm]; rfl)
    | false => simp [System.writeRow, hq] at hsame
  · exact flagged_writeRow_ne hk h

theorem Inv.writeRow (h : Inv s) (hrow : (s.manifests.get u.key).isSome) :
    Inv { (s.writeRow u).goto i (.listTagNames u ((s.writeRow u).cleared u.key)) with
      clock := s.clock + 1 } := by
  have hhistory := writeRow_history (s := s) u
  have hbusted : ∀ k, (s.writeRow u).busted k = true →
      s.cleared k = (s.writeRow u).cleared k ∧ s.busted k = true := by
    intro k hk
    rcases hhistory k with ⟨_, _, _, hb, _⟩ | ⟨hc, hb, _⟩
    · rw [hb] at hk
      cases hk
    · exact ⟨hc.symm, hb ▸ hk⟩
  have hsettled : ∀ k j, (s.writeRow u).settled k = some j →
      (s.writeRow u).busted k = s.busted k ∧ s.settled k = some j := by
    intro k j hj
    rcases hhistory k with ⟨_, _, _, _, hs⟩ | ⟨_, hb, hs⟩
    · rw [hs] at hj
      cases hj
    · exact ⟨hb, hs ▸ hj⟩
  constructor
  · intro k hk
    exact flagged_writeRow_of_cleared (hbusted k hk).1 (h.row k (hbusted k hk).2)
  · intro k e he hdigest hk
    exact h.cached k e he hdigest (hbusted k hk).2
  · intro k j hj
    obtain ⟨hb, hold⟩ := hsettled k j hj
    exact ⟨hb.trans (h.settled k j hold).1, Nat.le_succ_of_le (h.settled k j hold).2⟩
  · refine pcInv_update h ⟨Nat.le_succ _, fun k => ?_, fun k => flagged_writeRow_of_cleared,
      fun k hsame hk => ?_, fun k j hj => Or.inl (hsettled k j hj).2⟩ rfl
      ⟨Nat.le_refl _, fun hq _ => flagged_writeRow hq hrow⟩
    · show s.cleared k ≤ (s.writeRow u).cleared k
      rcases hhistory k with ⟨_, _, hc, _⟩ | ⟨hc, _⟩
      · omega
      · omega
    · have hsame' : s.cleared k = (s.writeRow u).cleared k := hsame
      rcases hhistory k with ⟨_, _, hc, _⟩ | ⟨_, hb, _⟩
      · omega
      · exact hb.trans hk

theorem delAll_entry {c : ExpiringStore.Store Key ManifestRow} {keys : List Key}
    {e : ExpiringStore.Entry ManifestRow} (h : (delAll c keys).entry k = some e) :
    k ∉ keys ∧ c.entry k = some e := by
  induction keys generalizing c with
  | nil => exact ⟨List.not_mem_nil, h⟩
  | cons key keys ih =>
    obtain ⟨hout, hdel⟩ := ih h
    by_cases hk : k = key
    · rw [hk, ExpiringStore.Store.del_entry_self] at hdel
      cases hdel
    · rw [ExpiringStore.Store.del_entry_ne c hk] at hdel
      exact ⟨by simp [hk, hout], hdel⟩

theorem Inv.bust (h : Inv s) {cleared : Nat} {names : List String}
    (hpc : s.pcs i = .bust u cleared names) :
    Inv { (s.bust u cleared names).goto i (.updated u cleared) with clock := s.clock + 1 } := by
  have hi := h.pcs i
  rw [hpc] at hi
  -- Only the key of the update can have become busted, and its row is flagged.
  have hbusted : ∀ k, (s.bust u cleared names).busted k = true ↔ s.busted k = true ∨
      (k = u.key ∧ u.quarantined = true ∧ s.cleared u.key = cleared) := by
    intro k
    unfold System.bust
    by_cases hc : u.quarantined = true ∧ s.cleared u.key = cleared
    · by_cases hkey : k = u.key
      · simp [hc, hkey]
      · simp [hc, hkey]
    · simp [hc]
  constructor
  · intro k hk
    rcases (hbusted k).mp hk with hk | ⟨rfl, hq, hc⟩
    · exact h.row k hk
    · exact hi.2 hq hc
  · intro k e he hdigest hk
    obtain ⟨hout, he⟩ := delAll_entry he
    rcases (hbusted k).mp hk with hk | ⟨rfl, _⟩
    · exact h.cached k e he hdigest hk
    · exact absurd List.mem_cons_self hout
  · intro k j hj
    have hold := h.settled k j hj
    exact ⟨(hbusted k).mpr (Or.inl hold.1), Nat.le_succ_of_le hold.2⟩
  · exact pcInv_update h ⟨Nat.le_succ _, fun _ => Nat.le_refl _, fun _ _ hk => hk,
      fun k _ hk => (hbusted k).mpr (Or.inl hk), fun _ _ hj => Or.inl hj⟩ rfl
      ⟨hi.1, fun hq hc => (hbusted u.key).mpr (Or.inr ⟨rfl, hq, hc⟩)⟩

theorem Inv.settle (h : Inv s) {cleared : Nat} (hpc : s.pcs i = .updated u cleared) :
    Inv { (s.settle u cleared).goto i .idle with clock := s.clock + 1 } := by
  have hi := h.pcs i
  rw [hpc] at hi
  have hnew : ∀ k j, (s.settle u cleared).settled k = some j → s.settled k = some j ∨
      (j = s.clock + 1 ∧ s.busted k = true) := by
    intro k j hj
    unfold System.settle at hj
    by_cases hc : u.quarantined = true ∧ s.cleared u.key = cleared ∧ s.settled u.key = none
    · simp only [if_pos hc] at hj
      by_cases hkey : k = u.key
      · rw [hkey, update_self, Option.some.injEq] at hj
        exact Or.inr ⟨hj.symm, hkey ▸ hi.2 hc.1 hc.2.1⟩
      · rw [update_of_ne hkey] at hj
        exact Or.inl hj
    · simp only [if_neg hc] at hj
      exact Or.inl hj
  refine ⟨h.row, h.cached, fun k j hj => ?_, pcInv_update h ⟨Nat.le_succ _,
    fun _ => Nat.le_refl _, fun _ _ hk => hk, fun _ _ hk => hk, fun k j hj => ?_⟩ rfl trivial⟩
  · rcases hnew k j hj with hj | ⟨rfl, hk⟩
    · exact ⟨(h.settled k j hj).1, Nat.le_succ_of_le (h.settled k j hj).2⟩
    · exact ⟨hk, Nat.le_refl _⟩
  · rcases hnew k j hj with hj | ⟨rfl, _⟩
    · exact Or.inl hj
    · exact Or.inr (Nat.lt_succ_self _)

theorem Inv.cacheManifest (h : Inv s) (hpc : s.pcs i = .cacheManifest g m)
    (hfresh : isDigest g.key.2.2 = true → s.busted g.key = true → m.quarantined = true) :
    Inv { { s with manifestCache := s.manifestCache.set s.now g.key m manifestTTL }.goto i
      (.answered g m) with clock := s.clock + 1 } := by
  have hi := h.pcs i
  rw [hpc] at hi
  refine ⟨h.row, fun k e he hdigest hbusted => ?_,
    fun k j hj => ⟨(h.settled k j hj).1, Nat.le_succ_of_le (h.settled k j hj).2⟩,
    pcInv_update h ⟨Nat.le_succ _, fun _ => Nat.le_refl _, fun _ _ hk => hk, fun _ _ hk => hk,
      fun _ _ hj => Or.inl hj⟩ rfl ⟨⟨Nat.le_succ_of_le hi.1.1, hi.1.2⟩, hi.2⟩⟩
  have he' : (s.manifestCache.set s.now g.key m manifestTTL).entry k = some e := he
  by_cases hk : k = g.key
  · rw [hk, ExpiringStore.Store.set_entry_self, Option.some.injEq] at he'
    rw [hk] at hdigest hbusted
    rw [← he']
    exact hfresh hdigest hbusted
  · rw [ExpiringStore.Store.set_entry_ne _ _ _ _ hk] at he'
    exact h.cached k e he' hdigest hbusted

theorem pcInv_begin (req : Request) : PcInv s (req.begin s.clock) := by
  cases req with
  | pull t r reference =>
    show PcInv s (if matchesDigestRE reference then _ else _)
    split_ifs with href
    · refine ⟨Nat.le_refl _, fun _ => ?_⟩
      have hpre : hasPrefix reference "sha256:" = true := by
        unfold matchesDigestRE at href
        simp only [Bool.and_eq_true] at href
        exact href.1.1
      exact hpre
    · exact Nat.le_refl _
  | getManifest t r reference => exact ⟨Nat.le_refl _, fun hp => by cases hp⟩
  | putTag t => trivial
  | updateManifestQuarantine u =>
    show PcInv s (if u.valid then _ else _)
    split_ifs
    · trivial
    · trivial

theorem pcInv_afterTag {key : Key} {t : TagRow} {start : Nat} (h : start ≤ s.clock) :
    PcInv s (afterTag key t start) :=
  ⟨h, fun _ => t.manifestDigest.isDigest⟩

theorem Inv.moves (h : Inv s) {s' : System n} (hsame : Same s s') {pc : Pc}
    (hpcs : s'.pcs = update s.pcs i pc) (hpc : PcInv s pc) : Inv s' :=
  h.of_same hsame (pcInv_update h hsame.keeps hpcs (hpc.mono hsame.keeps))

theorem Inv.advance (h : Inv s) (hstale : StoresNothingStale s (.advance i)) :
    Inv { s.advance i with clock := s.clock + 1 } := by
  have hi := h.pcs i
  have hgoto : ∀ pc, PcInv s pc → Inv { s.goto i pc with clock := s.clock + 1 } :=
    fun pc hpc => h.moves ⟨rfl, rfl, rfl, rfl, rfl, Nat.le_succ _⟩ rfl hpc
  unfold System.advance
  cases hpc : s.pcs i with
  | idle =>
    have hsame : Same s { s with clock := s.clock + 1 } :=
      ⟨rfl, rfl, rfl, rfl, rfl, Nat.le_succ _⟩
    exact h.of_same hsame fun j => (h.pcs j).mono hsame.keeps
  | lookupTag key start =>
    rw [hpc] at hi
    dsimp only
    split
    · exact hgoto _ (pcInv_afterTag hi)
    · exact hgoto _ hi
  | queryTag key start =>
    rw [hpc] at hi
    dsimp only
    split
    · exact hgoto _ hi
    · exact hgoto _ trivial
  | cacheTag key t start =>
    rw [hpc] at hi
    exact h.moves ⟨rfl, rfl, rfl, rfl, rfl, Nat.le_succ _⟩ rfl (pcInv_afterTag hi)
  | lookupManifest g =>
    rw [hpc] at hi
    dsimp only
    split
    · next m hm => exact hgoto _ ⟨hi, h.informed_of_cached hm⟩
    · split_ifs with hd
      · exact hgoto _ ⟨hi, fun _ => rfl⟩
      · exact hgoto _ ⟨hi, by simpa using hd⟩
  | resolveTag g =>
    rw [hpc] at hi
    dsimp only
    split
    · exact hgoto _ ⟨hi.1, fun hd => by rw [hi.2] at hd; cases hd⟩
    · exact hgoto _ trivial
  | queryManifest g digest =>
    rw [hpc] at hi
    dsimp only
    split
    · next m hm => exact hgoto _ ⟨hi.1, h.informed_of_row hm hi.2⟩
    · exact hgoto _ trivial
  | cacheManifest g m => exact h.cacheManifest hpc (hstale i g m rfl hpc)
  | answered g m => exact hgoto .idle trivial
  | putTag t => exact h.moves ⟨rfl, rfl, rfl, rfl, rfl, Nat.le_succ _⟩ rfl trivial
  | updateRow u =>
    dsimp only
    split
    · next m hm => exact h.writeRow (by rw [hm]; rfl)
    · exact hgoto _ trivial
  | listTagNames u cleared =>
    rw [hpc] at hi
    exact hgoto (.bust u cleared (s.tagNames u)) hi
  | bust u cleared names => exact h.bust hpc
  | updated u cleared => exact h.settle hpc

theorem Inv.step (h : Inv s) {a : Action n} (hstale : StoresNothingStale s a) : Inv (s.step a) := by
  have hkeep : ∀ s' : System n, Same s s' → s'.pcs = s.pcs → Inv s' := by
    intro s' hsame hpcs
    refine h.of_same hsame fun j => ?_
    rw [hpcs]
    exact (h.pcs j).mono hsame.keeps
  cases a with
  | tick elapsed => exact hkeep _ ⟨rfl, rfl, rfl, rfl, rfl, Nat.le_succ _⟩ rfl
  | call i req =>
    unfold System.step System.act
    dsimp only
    split_ifs
    · exact h.moves ⟨rfl, rfl, rfl, rfl, rfl, Nat.le_succ _⟩ rfl (pcInv_begin req)
    · exact hkeep _ ⟨rfl, rfl, rfl, rfl, rfl, Nat.le_succ _⟩ rfl
  | advance i => exact h.advance hstale

theorem Inv.refuses (h : Inv s) (a : Action n) : RefusesQuarantined s a := by
  intro i g reply _ hanswer hpull j hj hstart
  have hi := h.pcs i
  unfold System.answer at hanswer
  cases hpc : s.pcs i with
  | queryManifest g' digest =>
    rw [hpc] at hi
    simp only [hpc] at hanswer
    cases hm : s.manifests.get (g'.key.1, g'.key.2.1, digest) with
    | some m => simp [hm] at hanswer
    | none =>
      simp only [hm, Option.some.injEq, Prod.mk.injEq] at hanswer
      rw [← hanswer.1] at hpull hj
      -- The row of the pull's digest is there: it is flagged.
      rw [hi.2 (hi.1.2 hpull)] at hm
      obtain ⟨m, hrow, _⟩ := h.row g'.key (h.settled g'.key j hj).1
      have hnone : s.manifests.get g'.key = none := hm
      rw [hnone] at hrow
      cases hrow
  | answered g' m =>
    rw [hpc] at hi
    simp only [hpc, Option.some.injEq, Prod.mk.injEq] at hanswer
    rw [← hanswer.1] at hpull hj hstart
    have hflag : m.quarantined = true := hi.2 (hi.1.2 hpull) j hj hstart
    rw [← hanswer.2]
    exact ⟨_, if_pos hflag⟩
  | _ => simp [hpc] at hanswer

theorem Inv.fresh (manifests : Table ManifestRow Key ManifestRow.key)
    (tags : Table TagRow Key TagRow.key) (now : Int) :
    Inv (System.fresh manifests tags now : System n) where
  row k hk := by cases hk
  cached k e he := by cases he
  settled k j hj := by cases hj
  pcs _ := trivial

end Steps

section Runs

variable {n : Nat}

/-- **A quarantine takes effect at once** in every interleaving that stores no
stale response. -/
theorem quarantine_at_once (manifests : Table ManifestRow Key ManifestRow.key)
    (tags : Table TagRow Key TagRow.key) (now : Int) (acts : List (Action n))
    (hstale : Guarded System.step StoresNothingStale (System.fresh manifests tags now) acts) :
    Guarded System.step RefusesQuarantined (System.fresh manifests tags now) acts := by
  refine guarded_of_invariant (I := Inv) ?_ (Inv.fresh manifests tags now) hstale
  intro s a h hstale
  exact ⟨h.step hstale, h.refuses a⟩

end Runs

def sampleDigest : Digest where
  text := "sha256:" ++ String.ofList (List.replicate 64 'a')
  isDigest := by decide +kernel

def sampleRow : ManifestRow := ⟨"t", "r", sampleDigest, false, none, none, none⟩

def sampleStart : System 2 := .fresh (.single sampleRow) .empty 0

def samplePull : Request := .pull "t" "r" sampleDigest.text

def sampleUpdate : Request :=
  .updateManifestQuarantine ⟨"t", "r", sampleDigest.text, true, "CVE-2026-1", "admin"⟩

def staleStore {n : Nat} (i j : Fin n) : List (Action n) :=
  [.call i samplePull, .advance i, .advance i,
    .call j sampleUpdate, .advance j, .advance j, .advance j, .advance j,
    .advance i, .advance i, .call i samplePull, .advance i]

theorem stale_response_served :
    (run System.step sampleStart (staleStore 0 1)).manifests.get sampleRow.key =
        some ⟨"t", "r", sampleDigest, true, some "CVE-2026-1", some 0, some "admin"⟩ ∧
    (run System.step sampleStart (staleStore 0 1)).settled sampleRow.key = some 8 ∧
    (run System.step sampleStart (staleStore 0 1)).answer 0 =
        some (⟨sampleRow.key, true, 10⟩, .served) ∧
    ¬ Guarded System.step RefusesQuarantined sampleStart (staleStore 0 1 ++ [.advance 0]) := by
  have hsettled : (run System.step sampleStart (staleStore 0 1)).settled sampleRow.key =
      some 8 := by decide +kernel
  have hanswer : (run System.step sampleStart (staleStore 0 1)).answer 0 =
      some (⟨sampleRow.key, true, 10⟩, .served) := by decide +kernel
  refine ⟨by decide +kernel, hsettled, hanswer, fun h => ?_⟩
  have hlast : RefusesQuarantined (run System.step sampleStart (staleStore 0 1)) (.advance 0) :=
    (guarded_append.mp h).2.1
  obtain ⟨reason, hreason⟩ := hlast 0 _ _ rfl hanswer rfl 8 hsettled (by decide)
  cases hreason

def orderly {n : Nat} (i j : Fin n) : List (Action n) :=
  [.call i samplePull, .advance i, .advance i, .advance i, .advance i,
    .call j sampleUpdate, .advance j, .advance j, .advance j, .advance j,
    .call i samplePull, .advance i, .advance i, .advance i, .advance i]

theorem quarantine_at_once_orderly :
    Guarded System.step StoresNothingStale sampleStart (orderly 0 1) ∧
    Guarded System.step RefusesQuarantined sampleStart (orderly 0 1) := by
  have hstale : Guarded System.step StoresNothingStale sampleStart (orderly 0 1) := by
    decide +kernel
  exact ⟨hstale, quarantine_at_once _ _ _ (orderly 0 1) hstale⟩

end OciJanus.Core.Quarantine
