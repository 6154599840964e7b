import Mathlib.Data.List.Pairwise
import OciJanus.Verified.LinkedChain
import OciJanus.Audit.HashChain

/-!
# `VerifyChain`

The order of the rows (any list) and of a Go map (`MapOrder`) are arguments.
-/

namespace OciJanus.Audit.VerifyChain

open Verified Sha256 Rfc3339 LinkedChain Audit.HashChain List

structure RowRec where
  ev : AuditEvent
  (prevHash rowHash : Bytes)
  deriving DecidableEq

def preChainSentinel : Bytes := [0x00]

structure ChainVerification where
  firstBadID : UUID
  firstBadAt : Time
  unverifiable : Nat
  deriving DecidableEq

def ChainVerification.Intact (v : ChainVerification) : Prop :=
  v.firstBadID = UUID.nil

instance (v : ChainVerification) : Decidable v.Intact :=
  inferInstanceAs (Decidable (v.firstBadID = UUID.nil))

def bytesEqual (a b : Bytes) : Bool :=
  a.length == b.length && (a.zip b).all fun p => p.1 == p.2

structure MapOrder where
  order : List RowRec → List RowRec
  perm : ∀ l, (order l).Perm l

def links : Links RowRec Bytes := ⟨RowRec.prevHash, RowRec.rowHash⟩

def flag (r : RowRec) (unverifiable : Nat) : ChainVerification :=
  ⟨r.ev.id, r.ev.occurredAt, unverifiable⟩

def clean (unverifiable : Nat) : ChainVerification :=
  ⟨UUID.nil, 0, unverifiable⟩

structure Scan where
  bucket : List RowRec
  (total unverifiable : Nat)

def isPreChain (r : RowRec) : Bool :=
  bytesEqual r.prevHash preChainSentinel && bytesEqual r.rowHash preChainSentinel

def scan : List RowRec → Scan → Except ChainVerification Scan
  | [], s => .ok s
  | rec :: rows, s =>
    if isPreChain rec then
      scan rows { s with unverifiable := s.unverifiable + 1 }
    else if (links.next s.bucket rec.prevHash).isSome then
      .error (flag rec s.unverifiable)
    else
      scan rows { s with bucket := s.bucket ++ [rec], total := s.total + 1 }

inductive WalkEnd where
  | bad (r : RowRec)
  | tip (seen : Nat)
  | recomputeFailed
  | outOfFuel

def walk (bucket : List RowRec) : Nat → Option RowRec → Nat → WalkEnd
  | _, none, seen => .tip seen
  | 0, some _, _ => .outOfFuel
  | fuel + 1, some current, seen =>
    match computeRowHash current.prevHash current.ev with
    | none => .recomputeFailed
    | some want =>
      if bytesEqual want current.rowHash then
        walk bucket fuel (links.next bucket current.rowHash) (seen + 1)
      else .bad current

def reach (bucket : List RowRec) : Nat → Option RowRec → List Bytes → Option (List Bytes)
  | _, none, reachable => some reachable
  | 0, some _, _ => none
  | fuel + 1, some row, reachable =>
    reach bucket fuel (links.next bucket row.rowHash) (row.rowHash :: reachable)

inductive VerifyError where
  | recompute
  | outOfFuel
  deriving DecidableEq

def firstHit (unverifiable : Nat) : Option RowRec → ChainVerification
  | some r => flag r unverifiable
  | none => clean unverifiable

def walkChain (ord : MapOrder) (fuel : Nat) (s : Scan) : Except VerifyError ChainVerification :=
  match walk s.bucket fuel (links.next s.bucket genesisPrevHash) 0 with
  | .recomputeFailed => .error .recompute
  | .outOfFuel => .error .outOfFuel
  | .bad r => .ok (flag r s.unverifiable)
  | .tip seen =>
    if seen ≠ s.total then
      match reach s.bucket fuel (links.next s.bucket genesisPrevHash) [] with
      | none => .error .outOfFuel
      | some reachable =>
        .ok (firstHit s.unverifiable ((ord.order s.bucket).find?
          fun r => !reachable.contains r.rowHash))
    else .ok (clean s.unverifiable)

def verifyChain (ord : MapOrder) (fuel : Nat) (rows : List RowRec) :
    Except VerifyError ChainVerification :=
  match scan rows ⟨[], 0, 0⟩ with
  | .error v => .ok v
  | .ok s =>
    match links.next s.bucket genesisPrevHash with
    | some _ => walkChain ord fuel s
    | none =>
      if s.total = 0 then .ok (clean s.unverifiable)
      else
        match ord.order s.bucket with
        | r :: _ => .ok (flag r s.unverifiable)
        | [] => walkChain ord fuel s

def chainedRows (rows : List RowRec) : List RowRec :=
  rows.filter fun r => !isPreChain r

def Verifies (r : RowRec) : Prop :=
  computeRowHash r.prevHash r.ev = some r.rowHash

instance (r : RowRec) : Decidable (Verifies r) :=
  inferInstanceAs (Decidable (computeRowHash r.prevHash r.ev = some r.rowHash))

def Whole (rows : List RowRec) : Prop :=
  links.Arranged genesisPrevHash Verifies (chainedRows rows)

def tableInputs (rows : List RowRec) : List Bytes :=
  rows.flatMap fun r => hashInputs r.prevHash r.ev

def CollisionFree (rows : List RowRec) : Prop :=
  NoCollision {m | m ∈ tableInputs rows}

theorem collisionFree_iff_pairwise (rows : List RowRec) :
    (tableInputs rows).Pairwise (fun m m' => sha256 m = sha256 m' → m = m') ↔
      CollisionFree rows := by
  constructor
  · intro h m hm m' hm' heq
    have : Std.Symm fun m m' : Bytes => sha256 m = sha256 m' → m = m' :=
      ⟨fun _ _ hr hx => (hr hx.symm).symm⟩
    exact h.forall_of_forall (fun _ _ _ => rfl) hm hm' heq
  · intro h
    exact pairwise_of_forall_mem_list fun m hm m' hm' heq => h hm hm' heq

instance (rows : List RowRec) : Decidable (CollisionFree rows) :=
  decidable_of_iff _ (collisionFree_iff_pairwise rows)

theorem bytesEqual_iff (a b : Bytes) : bytesEqual a b = true ↔ a = b := by
  induction a generalizing b with
  | nil => cases b <;> simp [bytesEqual]
  | cons x a ih =>
    cases b with
    | nil => simp [bytesEqual]
    | cons y b =>
      have := ih b
      simp only [bytesEqual, Bool.and_eq_true, beq_iff_eq] at this
      simp only [bytesEqual, length_cons, zip_cons_cons,
        all_cons, Bool.and_eq_true, beq_iff_eq, List.cons.injEq, ← this,
        Nat.add_right_cancel_iff]
      exact and_left_comm

@[simp] theorem links_prev (r : RowRec) : links.prev r = r.prevHash := rfl

@[simp] theorem links_own (r : RowRec) : links.own r = r.rowHash := rfl

@[simp] theorem chainedRows_nil : chainedRows [] = [] := rfl

variable {r : RowRec}

theorem chainedRows_cons_of_pos (h : isPreChain r = true)
    (rows : List RowRec) : chainedRows (r :: rows) = chainedRows rows := by
  simp [chainedRows, h]

theorem chainedRows_cons_of_neg (h : isPreChain r = false)
    (rows : List RowRec) : chainedRows (r :: rows) = r :: chainedRows rows := by
  simp [chainedRows, h]

theorem mem_chainedRows {rows : List RowRec} :
    r ∈ chainedRows rows ↔ r ∈ rows ∧ isPreChain r = false := by
  simp [chainedRows]

theorem chainedRows_length_le (rows : List RowRec) : (chainedRows rows).length ≤ rows.length :=
  length_filter_le _ _

theorem chainedRows_perm {rows rows' : List RowRec} (h : rows.Perm rows') :
    (chainedRows rows).Perm (chainedRows rows') :=
  h.filter _

theorem Verifies.not_preChain (h : Verifies r) : isPreChain r = false := by
  have hlen := computeRowHash_length h
  by_contra hpre
  simp only [isPreChain, Bool.not_eq_false, Bool.and_eq_true, bytesEqual_iff,
    preChainSentinel] at hpre
  simp [hpre.2] at hlen

theorem Verifies.validMetadata (h : Verifies r) : ValidMetadata r.ev :=
  validMetadata_of_computeRowHash h

def preChainCount (rows : List RowRec) : Nat := rows.countP isPreChain

theorem scan_of_nodup (rows : List RowRec) (s : Scan)
    (hnd : ((s.bucket ++ chainedRows rows).map links.prev).Nodup) :
    scan rows s = .ok ⟨s.bucket ++ chainedRows rows, s.total + (chainedRows rows).length,
      s.unverifiable + preChainCount rows⟩ := by
  induction rows generalizing s with
  | nil => simp [scan, preChainCount]
  | cons r rows ih =>
    cases hpre : isPreChain r with
    | true =>
      rw [chainedRows_cons_of_pos hpre] at hnd ⊢
      have hstep : scan (r :: rows) s =
          scan rows { s with unverifiable := s.unverifiable + 1 } := by
        simp [scan, hpre]
      rw [hstep, ih { s with unverifiable := s.unverifiable + 1 } hnd]
      simp [preChainCount, hpre]
      omega
    | false =>
      rw [chainedRows_cons_of_neg hpre] at hnd ⊢
      have hnone : links.next s.bucket r.prevHash = none := by
        refine Links.next_eq_none_iff.mpr fun x hx heq => ?_
        rw [map_append] at hnd
        exact (nodup_append.mp hnd).2.2 _ (mem_map_of_mem hx) _ (by simp) heq
      have hnd' : ((({ s with bucket := s.bucket ++ [r], total := s.total + 1 } :
          Scan).bucket ++ chainedRows rows).map links.prev).Nodup := by
        simpa using hnd
      have hstep : scan (r :: rows) s =
          scan rows { s with bucket := s.bucket ++ [r], total := s.total + 1 } := by
        simp [scan, hpre, hnone]
      rw [hstep, ih _ hnd']
      simp [preChainCount, hpre]
      omega

theorem scan_of_fork (rows : List RowRec) (s : Scan) (hs : (s.bucket.map links.prev).Nodup)
    (hnd : ¬ ((s.bucket ++ chainedRows rows).map links.prev).Nodup) :
    ∃ pre r post unv, chainedRows rows = pre ++ r :: post ∧
      (∃ x ∈ s.bucket ++ pre, x.prevHash = r.prevHash) ∧
      scan rows s = .error (flag r unv) := by
  induction rows generalizing s with
  | nil => simp [hs] at hnd
  | cons r rows ih =>
    cases hpre : isPreChain r with
    | true =>
      rw [chainedRows_cons_of_pos hpre] at hnd ⊢
      simpa only [scan, hpre, if_true] using ih { s with unverifiable := s.unverifiable + 1 } hs hnd
    | false =>
      rw [chainedRows_cons_of_neg hpre] at hnd ⊢
      cases hnext : links.next s.bucket r.prevHash with
      | some x =>
        refine ⟨[], r, chainedRows rows, s.unverifiable, rfl,
          ⟨x, by simpa using Links.mem_of_next hnext, Links.prev_of_next hnext⟩, ?_⟩
        simp [scan, hpre, hnext]
      | none =>
        have hs' : ((s.bucket ++ [r]).map links.prev).Nodup := by
          rw [map_append, nodup_append]
          refine ⟨hs, by simp, ?_⟩
          intro a ha b hb
          obtain ⟨x, hx, rfl⟩ := mem_map.mp ha
          simp only [map_cons, map_nil, mem_singleton] at hb
          exact hb ▸ Links.next_eq_none_iff.mp hnext x hx
        obtain ⟨pre, y, post, unv, hsplit, ⟨x, hx, hxy⟩, hscan⟩ :=
          ih { s with bucket := s.bucket ++ [r], total := s.total + 1 } hs' (by simpa using hnd)
        refine ⟨r :: pre, y, post, unv, by simp [hsplit], ⟨x, by simpa using hx, hxy⟩, ?_⟩
        simpa [scan, hpre, hnext] using hscan

section Walks

variable {bucket : List RowRec}

theorem walk_eq (hmeta : ∀ r ∈ bucket, ValidMetadata r.ev) (fuel : Nat) (k : Bytes) (seen : Nat)
    (h : (links.trail bucket (fun r => Verifies r) fuel k).length < fuel) :
    walk bucket fuel (links.next bucket k) seen = match links.next bucket
          (links.tip k (links.trail bucket (fun r => Verifies r) fuel k)) with
      | none => .tip (seen + (links.trail bucket (fun r => Verifies r) fuel k).length)
      | some r => .bad r := by
  induction fuel generalizing k seen with
  | zero => simp at h
  | succ fuel ih =>
    cases hk : links.next bucket k with
    | none => simp [Links.trail, hk, walk]
    | some r =>
      obtain ⟨want, hwant⟩ :=
        computeRowHash_isSome (hmeta r (Links.mem_of_next hk)) r.prevHash
      by_cases hv : Verifies r
      · have hw : bytesEqual want r.rowHash = true :=
          (bytesEqual_iff _ _).mpr (Option.some.inj (hwant.symm.trans hv))
        simp only [Links.trail, hk, hv, decide_true, if_true, length_cons] at h ⊢
        simp only [walk, hwant, hw, if_true]
        have := ih (links.own r) (seen + 1) (by omega)
        simp only [links_own] at this ⊢
        rw [this, Links.tip_cons, links_own]
        split
        · simp
          omega
        · rfl
      · have hw : bytesEqual want r.rowHash = false := by
          rw [Bool.eq_false_iff]
          intro hw
          exact hv (hwant.trans (congrArg some ((bytesEqual_iff _ _).mp hw)))
        simp [Links.trail, hk, hv, walk, hwant, hw]

theorem reach_eq (fuel : Nat) (k : Bytes) (acc : List Bytes)
    (h : (links.trail bucket (fun r => Verifies r) fuel k).length < fuel) (htip : links.next bucket
      (links.tip k (links.trail bucket (fun r => Verifies r) fuel k)) = none) :
    reach bucket fuel (links.next bucket k) acc =
      some (((links.trail bucket (fun r => Verifies r) fuel k).map links.own).reverse ++ acc) := by
  induction fuel generalizing k acc with
  | zero => simp at h
  | succ fuel ih =>
    cases hk : links.next bucket k with
    | none => simp [Links.trail, hk, reach]
    | some r =>
      by_cases hv : Verifies r
      · simp only [Links.trail, hk, hv, decide_true, if_true,
          length_cons, Links.tip_cons] at h htip ⊢
        simp only [reach]
        have := ih (links.own r) (r.rowHash :: acc) (by omega) htip
        simpa using this
      · simp [Links.trail, hk, hv] at htip

end Walks

end OciJanus.Audit.VerifyChain
