import OciJanus.Core.UploadHandlers
import OciJanus.Gc.Collector
import Mathlib.Data.List.Sort

/-!
# Pushes and the three ways a manifest goes away

The sweep and the finaliser list what they are going to delete and then delete it one call at a
time. Each call is one step.
-/

namespace OciJanus.Gc.Deleters

open Core.UploadHandlers (matchesDigestRE)
open Gc.Collector (arrives)
open Verified KeyedTable MachineInt Sha256 Utf8 Metadata List

def second : Int := 1000000000

def hour : Int := 60 * 60 * second

/-- The product wraps: 213504 days give 25 minutes. -/
def graceWindow (retentionGraceDays : Int) : Int :=
  let window := int64 (int64 (retentionGraceDays * 24) * hour)
  if 0 < window then window else 7 * 24 * hour

/-- The fraction of a second that the wrapped product may have is dropped. -/
def graceWindowSecs (retentionGraceDays : Int) : Int :=
  (graceWindow retentionGraceDays).tdiv second

/-- A number of days that `time.Duration` holds. -/
def DaysFit (days : Int) : Prop := -106751 ≤ days ∧ days ≤ 106751
  deriving Decidable

theorem graceWindowSecs_exact {days : Int} (h : DaysFit days) :
    graceWindowSecs days * second = graceWindow days := by
  obtain ⟨hlow, hhigh⟩ := h
  have hwindow : int64 (int64 (days * 24) * hour) = days * 86400 * second := by
    unfold int64 hour second
    omega
  unfold graceWindowSecs graceWindow
  simp only [hwindow]
  split_ifs
  · rw [Int.mul_tdiv_cancel _ (by decide)]
  · decide

def markPending (now : Int) (tenantID : String) (id : Nat) (m : Manifest) : Manifest :=
  if m.id = id ∧ m.tenantID = tenantID then
    { m with retentionPendingDeleteAt := some (m.retentionPendingDeleteAt.getD now) }
  else m

def clearPending (tenantID : String) (id : Nat) (m : Manifest) : Manifest :=
  if m.id = id ∧ m.tenantID = tenantID then { m with retentionPendingDeleteAt := none } else m

def updateManifests (s : Store) (f : Manifest → Manifest)
    (hf : ∀ m, ((f m).repoID, (f m).digest) = (m.repoID, m.digest)) : Store :=
  { s with
    manifests := s.manifests.mapRows f hf
    manifests_repo := by
      intro m hm
      obtain ⟨u, hu, rfl⟩ := mem_map.mp hm
      rw [(Prod.mk.inj (hf u)).1]
      exact s.manifests_repo u hu }

theorem markPending_key (now : Int) (tenantID : String) (id : Nat) (m : Manifest) :
    ((markPending now tenantID id m).repoID, (markPending now tenantID id m).digest) =
      (m.repoID, m.digest) := by
  unfold markPending
  split_ifs
  · rfl
  · rfl

theorem clearPending_key (tenantID : String) (id : Nat) (m : Manifest) :
    ((clearPending tenantID id m).repoID, (clearPending tenantID id m).digest) =
      (m.repoID, m.digest) := by
  unfold clearPending
  split_ifs
  · rfl
  · rfl

/-- A row of a listing, as the delete names it. -/
structure Candidate where
  (tenantID repoID digest : String)
  deriving DecidableEq

def Candidate.of (m : Manifest) : Candidate := ⟨m.tenantID, m.repoID, m.digest⟩

def clampLimit (limit : Int) : Nat :=
  if limit ≤ 0 then 1000 else if 5000 < limit then 5000 else limit.toNat

def PastGrace (now secs : Int) (m : Manifest) : Prop :=
  ∃ t ∈ m.retentionPendingDeleteAt, t < now - max secs 0 * second
  deriving Decidable

def listPendingDeleteManifests (s : Store) (now : Int) (tenantID : String) (secs limit : Int) :
    List Manifest :=
  ((s.manifests.rows.filter fun m =>
      PastGrace now secs m ∧ (tenantID = "" ∨ m.tenantID = tenantID)).insertionSort
    fun a b => a.retentionPendingDeleteAt.getD 0 ≤ b.retentionPendingDeleteAt.getD 0).take
    (clampLimit limit)

variable {tenantID : String}

theorem mem_listPendingDeleteManifests {s : Store} {now : Int} {secs limit : Int} {m : Manifest}
    (h : m ∈ listPendingDeleteManifests s now tenantID secs limit) :
    m ∈ s.manifests.rows ∧ PastGrace now secs m := by
  have hmem := mem_of_mem_take h
  rw [mem_insertionSort, mem_filter, decide_eq_true_eq] at hmem
  exact ⟨hmem.1, hmem.2.1⟩

structure Config where
  docs : Documents
  digestOf : Bytes → String
  matches_digestOf : ∀ rawJSON, matchesDigestRE (digestOf rawJSON) = true
  (retentionGraceDays maxGraceCandidatesPerRun : Int)

/-- A push by tag that has stored its manifest and not yet its tag. -/
structure Push where
  (tenantID repoID tag digest : String)
  deriving DecidableEq

/-- The primary and a replica, the clock, the pushes under way, and what each sweep and each
finaliser has listed and not yet deleted. -/
structure System where
  (store replica : Store)
  now : Int
  pushes : List Push
  (sweeps finalisers : List (List Candidate))

/-- One call to registry-metadata each; `i` picks a listing, `fails` is a call that does not
arrive. -/
inductive Action where
  | tick (elapsed : Nat)
  | replicate
  | putManifest (tenantID repoID mediaType : String) (rawJSON : Bytes)
  | pushManifest (tenantID repoID tag mediaType : String) (rawJSON : Bytes)
  | pushTag (p : Push)
  | dropPush (p : Push)
  | deleteManifest (tenantID repoID reference : String)
  | mark (tenantID : String) (id : Nat)
  | clear (tenantID : String) (id : Nat)
  | sweepList (tenantID repoID : String) (cutoff : Int) (breaks : Option Nat)
  | sweepDelete (i : Nat) (fails : Bool)
  | graceList (tenantID : String)
  | graceDelete (i : Nat) (fails : Bool)

namespace System

def idle (store : Store) (now : Int) : System := ⟨store, store, now, [], [], []⟩

def deleteReference (s : Store) (tenantID repoID reference : String) : Except RepoError Store :=
  if matchesDigestRE reference then s.deleteManifest tenantID repoID reference
  else s.deleteTag tenantID repoID reference

def pushManifest (cfg : Config) (s : System) (tenantID repoID tag mediaType : String)
    (rawJSON : Bytes) : System :=
  match s.store.putManifest cfg.docs s.now tenantID repoID (cfg.digestOf rawJSON) mediaType
      rawJSON with
  | .ok store =>
    { s with
      store := store
      pushes := ⟨tenantID, repoID, tag, cfg.digestOf rawJSON⟩ :: s.pushes }
  | .error _ => s

def deleteNext (s : Store) (listing : List Candidate) (fails : Bool) : Store :=
  match listing with
  | [] => s
  | c :: _ => if fails then s else s.orSame (s.deleteManifest c.tenantID c.repoID c.digest)

def step (cfg : Config) (s : System) : Action → System
  | .tick elapsed => { s with now := s.now + elapsed }
  | .replicate => { s with replica := s.store }
  | .putManifest tenantID repoID mediaType rawJSON =>
    { s with
      store :=
        s.store.orSame (s.store.putManifest cfg.docs s.now tenantID repoID
          (cfg.digestOf rawJSON) mediaType rawJSON) }
  | .pushManifest tenantID repoID tag mediaType rawJSON =>
    s.pushManifest cfg tenantID repoID tag mediaType rawJSON
  | .pushTag p =>
    if p ∈ s.pushes then
      { s with
        store := s.store.orSame (s.store.putTag p.tenantID p.repoID p.tag p.digest)
        pushes := s.pushes.erase p }
    else s
  | .dropPush p => { s with pushes := s.pushes.erase p }
  | .deleteManifest tenantID repoID reference =>
    { s with store := s.store.orSame (deleteReference s.store tenantID repoID reference) }
  | .mark tenantID id =>
    { s with
      store := updateManifests s.store (markPending s.now tenantID id)
        (markPending_key s.now tenantID id) }
  | .clear tenantID id =>
    { s with
      store := updateManifests s.store (clearPending tenantID id) (clearPending_key tenantID id) }
  | .sweepList tenantID repoID cutoff breaks =>
    { s with
      sweeps :=
        ((arrives breaks (s.store.listUntaggedManifests tenantID repoID)).filter fun m =>
          m.createdAt ≤ cutoff).map .of :: s.sweeps }
  | .sweepDelete i fails =>
    { s with
      store := deleteNext s.store (s.sweeps.getD i []) fails
      sweeps := s.sweeps.modify i List.tail }
  | .graceList tenantID =>
    { s with
      finalisers :=
        (listPendingDeleteManifests s.replica s.now tenantID
          (graceWindowSecs cfg.retentionGraceDays) cfg.maxGraceCandidatesPerRun).map .of ::
          s.finalisers }
  | .graceDelete i fails =>
    { s with
      store := deleteNext s.store (s.finalisers.getD i []) fails
      finalisers := s.finalisers.modify i List.tail }

end System

/-- A row is there before and its key is free afterwards. -/
def Deletes (s s' : System) (m : Manifest) : Prop :=
  m ∈ s.store.manifests.rows ∧ s'.store.manifests.get (m.repoID, m.digest) = none
  deriving Decidable

section
variable {s : Store} {listing : List Candidate} {fails : Bool} {m : Manifest}

theorem deleteNext_eq (s : Store) (listing : List Candidate) (fails : Bool) :
    System.deleteNext s listing fails = s ∨ ∃ c rest, listing = c :: rest ∧
        s.deleteManifest c.tenantID c.repoID c.digest =
          .ok (System.deleteNext s listing fails) := by
  unfold System.deleteNext
  cases listing with
  | nil => exact Or.inl rfl
  | cons c rest =>
    by_cases hfails : fails = true
    · exact Or.inl (if_pos hfails)
    · simp only [hfails]
      rcases s.orSame_eq (s.deleteManifest c.tenantID c.repoID c.digest) with heq | hok
      · exact Or.inl heq
      · exact Or.inr ⟨c, rest, rfl, hok⟩

theorem deleteNext_rows (h : m ∈ (System.deleteNext s listing fails).manifests.rows) :
    m ∈ s.manifests.rows := by
  rcases deleteNext_eq s listing fails with heq | ⟨c, rest, _, hok⟩
  · rwa [heq] at h
  · obtain ⟨_, _, _, _, hrows⟩ := Store.deleteManifest_ok hok
    rw [hrows] at h
    exact (Table.mem_remove.mp h).1

theorem deleteNext_tags : (System.deleteNext s listing fails).tags = s.tags := by
  rcases deleteNext_eq s listing fails with heq | ⟨c, rest, _, hok⟩
  · rw [heq]
  · exact (Store.deleteManifest_ok hok).2.2.1

theorem deleteNext_gone (hm : m ∈ s.manifests.rows)
    (hgone : (System.deleteNext s listing fails).manifests.get (m.repoID, m.digest) = none) :
    ∃ rest, listing = Candidate.of m :: rest := by
  have hget := s.manifests.get_key hm
  rcases deleteNext_eq s listing fails with heq | ⟨c, rest, hlisting, hok⟩
  · rw [heq, hget] at hgone
    cases hgone
  · obtain ⟨_, _, _, _, hrows⟩ := Store.deleteManifest_ok hok
    rw [hrows, Table.get_remove, hget] at hgone
    have hhit : Store.deleteManifestHit c.tenantID c.repoID c.digest m = true := by
      by_contra hmiss
      simp [Option.filter, hmiss] at hgone
    simp only [Store.deleteManifestHit, decide_eq_true_eq] at hhit
    obtain ⟨hrepo, hdigest, htenant⟩ := hhit
    exact ⟨rest, by rw [hlisting, Candidate.of, htenant, hrepo, hdigest]⟩

end

theorem deleteReference_rows {s s' : Store} {repoID reference : String}
    (hok : System.deleteReference s tenantID repoID reference = .ok s') {m : Manifest}
    (hm : m ∈ s'.manifests.rows) : m ∈ s.manifests.rows := by
  unfold System.deleteReference at hok
  split_ifs at hok
  · rw [(Store.deleteManifest_ok hok).2.2.2.2] at hm
    exact (Table.mem_remove.mp hm).1
  · rwa [(Store.deleteTag_ok hok).2.2.1] at hm

theorem mem_flatten_of_modify_tail {ls : List (List Candidate)} {i : Nat} {c : Candidate}
    (h : c ∈ (ls.modify i List.tail).flatten) : c ∈ ls.flatten := by
  obtain ⟨l, hl, hc⟩ := mem_flatten.mp h
  obtain ⟨k, hk⟩ := mem_iff_getElem?.mp hl
  rw [List.getElem?_modify] at hk
  cases hold : ls[k]? with
  | none => simp [hold] at hk
  | some l' =>
    have hmem : l' ∈ ls := mem_iff_getElem?.mpr ⟨k, hold⟩
    rw [hold, Option.map_eq_map, Option.map_some, Option.some.injEq] at hk
    refine mem_flatten.mpr ⟨l', hmem, ?_⟩
    split_ifs at hk
    · rw [← hk] at hc
      exact mem_of_mem_tail hc
    · rwa [hk]

theorem mem_flatten_of_getD {ls : List (List Candidate)} {i : Nat} {c : Candidate}
    {rest : List Candidate} (h : ls.getD i [] = c :: rest) : c ∈ ls.flatten := by
  rw [getD_eq_getElem?_getD] at h
  cases hl : ls[i]? with
  | none => simp [hl] at h
  | some l =>
    rw [hl, Option.getD_some] at h
    exact mem_flatten.mpr ⟨l, mem_iff_getElem?.mpr ⟨i, hl⟩, by simp [h]⟩

def document : Bytes := stringBytes "\x7b\x7d"

def documentDigest : String :=
  "sha256:44136fa355b3678a1146ad16f7e8649e94fb4fc21fe77e8310c060f61caaff8a"

def oneDocument : Config where
  docs := indexDocuments
  digestOf _ := documentDigest
  matches_digestOf _ := by decide +kernel
  retentionGraceDays := 7
  maxGraceCandidatesPerRun := 1000

def oneRepository : System :=
  .idle (.fresh ⟨[], nodup_nil⟩ (.single ⟨"r", "o", "t", "app", false, 0, 0⟩)) 0

end OciJanus.Gc.Deleters
