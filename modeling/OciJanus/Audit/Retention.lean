import Mathlib.Data.List.Chain
import OciJanus.Audit.Tamper

/-!
# Retention and the chain

`SafeCutoff`: a purge takes only a tail of every tenant's chain. Calls are atomic.
-/

namespace OciJanus.Audit.Retention

open List

open Verified Sha256 Rfc3339 LinkedChain Run Audit.HashChain Audit.VerifyChain Audit.Exactness
  Audit.Insert Audit.Tamper

def kept (cutoff : Time) (r : RowRec) : Bool := !decide (r.ev.occurredAt < cutoff)

def purgeOlderThan (s : Db) (cutoff : Time) : Db :=
  { s with table := s.table.filter fun r => kept cutoff r.toRowRec }

section

variable (jsonb : Bytes → Option Bytes)

def insertCall (s : Db) (e : AuditEvent) (now : Time) (bytes : UUID) : Db :=
  let i := s.txs.length
  run (step jsonb) s [.begin e now, .exec i .lock, .exec i .readTip,
    .exec i (.insert bytes), .exec i .commit, .exec i .rollback]

inductive Op where
  | insert (e : AuditEvent) (now : Time) (bytes : UUID)
  | purge (cutoff : Time)

def apply (s : Db) : Op → Db
  | .insert e now bytes => insertCall jsonb s e now bytes
  | .purge cutoff => purgeOlderThan s cutoff

def Op.Faithful : Op → Prop
  | .insert e now _ => ∀ e', prepare e now = some e' → Insert.Faithful jsonb e'
  | .purge _ => True

end

def SafeCutoff (s : Db) (cutoff : Time) : Prop :=
  ∀ r ∈ s.table, ∀ x ∈ s.table, isPreChain r.toRowRec = false →
    isPreChain x.toRowRec = false → r.ev.tenantID = x.ev.tenantID →
    r.chainSeq < x.chainSeq → r.ev.occurredAt < cutoff → x.ev.occurredAt < cutoff

instance (s : Db) (cutoff : Time) : Decidable (SafeCutoff s cutoff) :=
  inferInstanceAs (Decidable (∀ r ∈ s.table, ∀ x ∈ s.table, _ → _ → _ → _ → _ → _))

def Op.Safe (s : Db) : Op → Prop
  | .insert _ _ _ => True
  | .purge cutoff => SafeCutoff s cutoff

def Quiescent (s : Db) : Prop := ∀ tx ∈ s.txs, tx.phase.holdsLock = false

def QuietExcept (i : Nat) (s : Db) : Prop :=
  ∀ (j : Nat) (tx : Tx), s.txs[j]? = some tx → i ≠ j → tx.phase.holdsLock = false

variable {i : Nat}

theorem exec_other (jsonb : Bytes → Option Bytes) (s : Db) {j : Nat} (tx : Tx)
    (stmt : Stmt) (hij : i ≠ j) : (exec jsonb s i tx stmt).txs[j]? = s.txs[j]? := by
  unfold exec
  split <;> (try dsimp only) <;> (try split) <;> (try split) <;>
    simp [Db.setPhase, hij]

theorem QuietExcept.exec {jsonb : Bytes → Option Bytes} {s : Db}
    (h : QuietExcept i s) (stmt : Stmt) : QuietExcept i (step jsonb s (.exec i stmt)) := by
  intro j b hj hij
  simp only [step] at hj
  split at hj
  · exact h j b hj hij
  · rw [exec_other _ _ _ _ hij] at hj
    exact h j b hj hij

theorem exec_rollback (jsonb : Bytes → Option Bytes) (s : Db) (i : Nat) (tx : Tx) :
    (∃ row, tx.phase = .committed row ∧ Insert.exec jsonb s i tx .rollback = s) ∨
      Insert.exec jsonb s i tx .rollback = s.setPhase i tx .rolledBack := by
  unfold Insert.exec
  cases hphase : tx.phase with
  | committed row => exact Or.inl ⟨row, rfl, rfl⟩
  | waiting | locked | tipRead | inserted | rolledBack => exact Or.inr rfl

theorem QuietExcept.rollback {jsonb : Bytes → Option Bytes} {s : Db}
    (h : QuietExcept i s) : Quiescent (step jsonb s (.exec i .rollback)) := by
  intro b hb
  obtain ⟨j, hj⟩ := mem_iff_getElem?.mp hb
  by_cases hij : i = j
  · subst hij
    simp only [step] at hj
    split at hj
    · rename_i hnone
      rw [hnone] at hj
      cases hj
    · rename_i tx htx
      rcases exec_rollback jsonb s i tx with ⟨row, hphase, hsame⟩ | hrolled
      · rw [hsame, htx] at hj
        rw [← Option.some.inj hj, hphase]
        rfl
      · have hself :
            (s.setPhase i tx .rolledBack).txs[i]? = some { tx with phase := .rolledBack } :=
          List.getElem?_set_self (List.getElem?_eq_some_iff.mp htx).1
        rw [hrolled, hself] at hj
        rw [← Option.some.inj hj]
        rfl
  · exact h.exec .rollback j b hj hij

theorem quiescent_insertCall {jsonb : Bytes → Option Bytes} {s : Db}
    (h : Quiescent s) (e : AuditEvent) (now : Time) (bytes : UUID) :
    Quiescent (insertCall jsonb s e now bytes) := by
  have hbegin : QuietExcept s.txs.length (step jsonb s (.begin e now)) := by
    intro j b hj hij
    have hmem : b ∈ s.txs ∨ b.phase = .waiting := by
      simp only [step] at hj
      split at hj
      · exact .inl (mem_of_getElem? hj)
      · rcases mem_append.mp (mem_of_getElem? hj) with hb | hb
        · exact .inl hb
        · exact .inr (mem_singleton.mp hb ▸ rfl)
    rcases hmem with hb | hb
    · exact h b hb
    · rw [hb]
      rfl
  simp only [insertCall, run_cons, run_nil]
  exact ((((hbegin.exec .lock).exec .readTip).exec (.insert bytes)).exec .commit).rollback

section Purge

variable {jsonb : Bytes → Option Bytes} {base new gone : List Row} {s : Db}
variable {cutoff : Time}

theorem prefix_filter {α : Type*} {p : α → Bool} {l : List α}
    (h : l.Pairwise fun a b => p b = true → p a = true) : l.filter p <+: l := by
  induction l with
  | nil => exact nil_prefix
  | cons a l ih =>
    rw [pairwise_cons] at h
    cases ha : p a with
    | true => simpa [ha] using ih h.2
    | false =>
      have hnone : l.filter p = [] := by
        refine filter_eq_nil_iff.mpr fun b hb hpb => ?_
        simpa [ha] using h.1 b hb hpb
      simp [ha, hnone]

def KeepsPrefix (cutoff : Time) (l : List RowRec) : Prop :=
  l.Pairwise fun a b => kept cutoff b = true → kept cutoff a = true

theorem safeCutoff_iff (h : Inv jsonb base new gone s) :
    SafeCutoff s cutoff ↔ ∀ t, KeepsPrefix cutoff (selectTenant new t) := by
  have hmem : ∀ r, r ∈ s.table ∧ isPreChain r.toRowRec = false ↔ r ∈ new := by
    intro r
    rw [h.table_eq, mem_append]
    constructor
    · rintro ⟨hr | hr, hpre⟩
      · rw [h.base_pre r hr] at hpre
        cases hpre
      · exact hr
    · exact fun hr => ⟨.inr hr, (h.verified r hr).1.not_preChain⟩
  constructor
  · intro hsafe t
    refine pairwise_map.mpr ?_
    refine (h.sorted t).imp_of_mem fun {a b} ha hb hlt hkeep => ?_
    obtain ⟨ha, hta⟩ := mem_tenantRows.mp ha
    obtain ⟨hb, htb⟩ := mem_tenantRows.mp hb
    obtain ⟨ha, hpa⟩ := (hmem a).mpr ha
    obtain ⟨hb, hpb⟩ := (hmem b).mpr hb
    have hstep := hsafe a ha b hb hpa hpb (hta.trans htb.symm) hlt
    simp only [kept, Bool.not_eq_true', decide_eq_false_iff_not] at hkeep ⊢
    exact fun hlt => hkeep (hstep hlt)
  · intro hkeep r hr x hx hpr hpx htenant hlt hold
    have hr' := mem_tenantRows.mpr ⟨(hmem r).mp ⟨hr, hpr⟩, htenant⟩
    have hx' := mem_tenantRows.mpr ⟨(hmem x).mp ⟨hx, hpx⟩, rfl⟩
    obtain ⟨i, hi, rfl⟩ := getElem_of_mem hr'
    obtain ⟨j, hj, hxj⟩ := getElem_of_mem hx'
    have hsorted := pairwise_iff_getElem.mp (h.sorted x.ev.tenantID)
    have hij : i < j := by
      rcases Nat.lt_trichotomy i j with hij | hij | hij
      · exact hij
      · subst hij
        rw [hxj] at hlt
        exact absurd hlt (Nat.lt_irrefl _)
      · have := hsorted j i hj hi hij
        rw [hxj] at this
        omega
    have hstep := pairwise_iff_getElem.mp
      (pairwise_map.mp (hkeep x.ev.tenantID)) i j hi hj hij
    rw [hxj] at hstep
    by_contra hge
    have := hstep (by simp [kept, hge])
    simp [kept, hold] at this

theorem tenantRows_purged (rows : List Row) (t : UUID) :
    tenantRows (rows.filter fun r => kept cutoff r.toRowRec) t =
      (tenantRows rows t).filter fun r => kept cutoff r.toRowRec := by
  simp only [tenantRows, filter_filter, Bool.and_comm]

theorem selectTenant_purged (rows : List Row) (t : UUID) :
    selectTenant (rows.filter fun r => kept cutoff r.toRowRec) t =
      (selectTenant rows t).filter (kept cutoff) := by
  rw [selectTenant, tenantRows_purged, selectTenant, filter_map]
  rfl

theorem inv_purge (h : Inv jsonb base new gone s) (hq : Quiescent s) (hsafe : SafeCutoff s cutoff) :
    Inv jsonb (base.filter fun r => kept cutoff r.toRowRec)
      (new.filter fun r => kept cutoff r.toRowRec)
      (gone ++ new.filter fun r => !kept cutoff r.toRowRec)
      (purgeOlderThan s cutoff) where
  table_eq := by simp [purgeOlderThan, h.table_eq]
  base_pre r hr := h.base_pre r (mem_of_mem_filter hr)
  verified r hr := h.verified r (mem_of_mem_filter hr)
  linked t := by
    rw [selectTenant_purged]
    exact (h.linked t).initial_part (prefix_filter ((safeCutoff_iff h).mp hsafe t))
  sorted t := by
    rw [tenantRows_purged]
    exact (h.sorted t).filter _
  base_lt b hb r hr := h.base_lt b (mem_of_mem_filter hb) r (mem_of_mem_filter hr)
  committed := by
    refine List.Perm.trans ?_ h.committed
    rw [append_assoc]
    refine (List.Perm.append_left gone ?_)
    exact perm_append_comm.trans (filter_append_perm _ _)
  seq r hr := h.seq r (mem_of_mem_filter hr)
  phases i tx hi :=
    ⟨.of_unlocked (hq tx (mem_of_getElem? hi)), (h.phases i tx hi).2⟩
  exclusive := h.exclusive

theorem chainedRows_purged (h : Inv jsonb base new gone s) (t : UUID) :
    chainedRows (selectTenant (purgeOlderThan s cutoff).table t) =
      (selectTenant new t).filter (kept cutoff) := by
  rw [← h.chainedRows_eq t, purgeOlderThan, selectTenant_purged]
  exact filter_comm _ _ _

theorem exists_gap {k : Bytes} {l : List RowRec} (hl : links.Linked k l)
    (h : ¬ KeepsPrefix cutoff l) :
    ∃ a ∈ l, ∃ b ∈ l, b.prevHash = a.rowHash ∧ kept cutoff a = false ∧ kept cutoff b = true := by
  have : Trans (fun a b : RowRec => kept cutoff b = true → kept cutoff a = true)
      (fun a b : RowRec => kept cutoff b = true → kept cutoff a = true)
      (fun a b : RowRec => kept cutoff b = true → kept cutoff a = true) :=
    ⟨fun hab hbc hc => hab (hbc hc)⟩
  rw [KeepsPrefix, ← isChain_iff_pairwise] at h
  obtain ⟨i, hi, hgap⟩ := exists_not_getElem_of_not_isChain h
  simp only [Classical.not_imp, Bool.not_eq_true] at hgap
  exact ⟨_, getElem_mem _, _, getElem_mem hi, hl.prev_succ i hi, hgap.2, hgap.1⟩

theorem not_whole_of_cut (h : Inv jsonb base new gone s) {t : UUID}
    (hcoll : CollisionFree (selectTenant new t))
    (hcut : ¬ KeepsPrefix cutoff (selectTenant new t)) :
    ¬ Whole (selectTenant (purgeOlderThan s cutoff).table t) := by
  have hseg : ∀ r ∈ selectTenant new t, r ∈ selectTenant new t ∧ Verifies r :=
    fun r hr => ⟨hr, h.verified_of_mem hr⟩
  have hroot := rooted_of_collisionFree hcoll
  obtain ⟨a, ha, b, hb, hlink, hdrop, hkeep⟩ := exists_gap (h.linked t) hcut
  unfold Whole
  rw [chainedRows_purged h]
  refine Links.not_arranged_of_missing (r := b) (mem_filter.mpr ⟨hb, hkeep⟩) ?_ ?_
  · rw [links_prev, hlink]
    exact hroot.own_ne a (hseg a ha)
  · intro y hy heq
    obtain ⟨hy, hkeepy⟩ := mem_filter.mp hy
    have hsame : y = a := inj_on_of_nodup_map
      ((h.linked t).nodup_own hseg hroot) hy ha (heq.trans hlink)
    rw [hsame, hdrop] at hkeepy
    cases hkeepy

theorem detects_of_cut (h : Inv jsonb base new gone s) {t : UUID}
    (hcoll : CollisionFree (selectTenant new t))
    (hcut : ¬ KeepsPrefix cutoff (selectTenant new t)) :
    Detects (purgeOlderThan s cutoff).table t := by
  have hchain : chainedRows (selectTenant (purgeOlderThan s cutoff).table t) =
      (selectTenant new t).filter (kept cutoff) := chainedRows_purged h t
  have hsub : ((selectTenant new t).filter (kept cutoff)).Sublist (selectTenant new t) :=
    filter_sublist
  have hcoll' : CollisionFree (chainedRows (selectTenant (purgeOlderThan s cutoff).table t)) := by
    rw [hchain]
    exact collisionFree_of_subset hcoll fun r hr => hsub.subset hr
  have hown := (h.linked t).nodup_own (fun r hr => ⟨hr, h.verified_of_mem hr⟩)
    (rooted_of_collisionFree hcoll)
  have hdec : Decided (selectTenant (purgeOlderThan s cutoff).table t) := by
    refine decided_of_distinct hcoll' ?_ ?_ <;> rw [hchain]
    · exact hown.sublist (hsub.map _)
    · intro r hr
      obtain ⟨row, hrow, rfl⟩ := mem_map.mp (hsub.subset hr)
      exact (h.verified row (mem_tenantRows.mp hrow).1).2
  intro rows ord fuel hperm hfuel
  obtain ⟨v, hv, hiff⟩ := verdict_of_decided (fun r hr => by
    rw [hchain] at hr
    exact (h.verified_of_mem (hsub.subset hr)).validMetadata) hcoll' hdec hperm hfuel ord
  exact ⟨v, hv, fun hint => not_whole_of_cut h hcoll hcut (hiff.mp hint)⟩

end Purge

def Accepts (table : List Row) (t : UUID) : Prop :=
  ∀ rows ord fuel, rows.Perm (selectTenant table t) → rows.length < fuel →
    ∃ v, verifyChain ord fuel rows = .ok v ∧ v.Intact

theorem not_accepts_of_detects {table : List Row} {t : UUID} (h : Detects table t) :
    ¬ Accepts table t := by
  intro hacc
  obtain ⟨v, hv, hint⟩ := hacc _ ⟨id, List.Perm.refl⟩ _ (List.Perm.refl _) (Nat.lt_succ_self _)
  obtain ⟨v', hv', hnot⟩ := h _ ⟨id, List.Perm.refl⟩ _ (List.Perm.refl _) (Nat.lt_succ_self _)
  rw [hv, Except.ok.injEq] at hv'
  exact hnot (hv' ▸ hint)

def CallInv (jsonb : Bytes → Option Bytes) (s : Db) : Prop :=
  Quiescent s ∧ ∃ base new gone, Inv jsonb base new gone s

theorem inv_insertCall {jsonb : Bytes → Option Bytes} {base new gone : List Row}
    {s : Db} (h : Inv jsonb base new gone s) {e : AuditEvent} {now : Time}
    (he : ∀ e', prepare e now = some e' → Insert.Faithful jsonb e') (bytes : UUID) :
    ∃ new', Inv jsonb base new' gone (insertCall jsonb s e now bytes) := by
  refine run_invariant (G := fun _ a => a.Faithful jsonb)
    (I := fun s => ∃ new', Inv jsonb base new' gone s) (fun s a hs ha => ?_) ⟨new, h⟩
    (guarded_of_forall fun a ha => ?_)
  · obtain ⟨new', hs⟩ := hs
    exact hs.step ha
  · simp only [mem_cons, not_mem_nil, or_false] at ha
    rcases ha with rfl | rfl | rfl | rfl | rfl | rfl
    · exact he
    all_goals trivial

theorem CallInv.apply {jsonb : Bytes → Option Bytes} {s : Db} (h : CallInv jsonb s)
    {op : Op} (hop : op.Faithful jsonb ∧ op.Safe s) : CallInv jsonb (apply jsonb s op) := by
  obtain ⟨hq, base, new, gone, hinv⟩ := h
  cases op with
  | insert e now bytes =>
    obtain ⟨new', hinv'⟩ := inv_insertCall hinv hop.1 bytes
    exact ⟨quiescent_insertCall hq e now bytes, base, new', gone, hinv'⟩
  | purge cutoff => exact ⟨hq, _, _, _, inv_purge hinv hq hop.2⟩

theorem run_callInv {jsonb : Bytes → Option Bytes} {base : List Row} {seq : Nat}
    (hbase : ∀ r ∈ base, isPreChain r.toRowRec = true ∧ r.chainSeq < seq)
    {ops : List Op} (hops : ∀ op ∈ ops, op.Faithful jsonb)
    (hsafe : Guarded (apply jsonb) (fun s op => op.Safe s) (initial base seq) ops) :
    CallInv jsonb (run (apply jsonb) (initial base seq) ops) :=
  run_invariant (fun _ _ hs hop => hs.apply hop)
    ⟨by simp [Quiescent, initial], base, [], [], inv_initial hbase⟩
    ((guarded_of_forall hops).and hsafe)

/-- **Retention that takes tails only** keeps every tenant verifiable. -/
theorem retention_runs_accepted (jsonb : Bytes → Option Bytes) (base : List Row)
    (seq : Nat) (hbase : ∀ r ∈ base, isPreChain r.toRowRec = true ∧ r.chainSeq < seq)
    (ops : List Op) (hops : ∀ op ∈ ops, op.Faithful jsonb)
    (hsafe : Guarded (apply jsonb) (fun s op => op.Safe s) (initial base seq) ops)
    (hcoll : CollisionFree (chainedRows (recs (run (apply jsonb) (initial base seq) ops).table))) :
    (∀ t, Accepts (run (apply jsonb) (initial base seq) ops).table t) ∧
    ∀ cutoff, (∀ t, Accepts (purgeOlderThan
        (run (apply jsonb) (initial base seq) ops) cutoff).table t) ↔
      SafeCutoff (run (apply jsonb) (initial base seq) ops) cutoff := by
  have hcall := run_callInv hbase hops hsafe
  obtain ⟨hq, base', new, gone, hinv⟩ := hcall
  generalize run (apply jsonb) (initial base seq) ops = s at *
  have hcollT : ∀ t, CollisionFree (chainedRows (selectTenant s.table t)) := fun t =>
    collisionFree_of_subset hcoll fun r hr =>
      (chained_selectTenant_sublist s.table t).subset hr
  refine ⟨fun t rows ord fuel hperm hfuel =>
    ⟨_, hinv.verifyChain_eq (hcollT t) hperm hfuel ord, rfl⟩, fun cutoff => ⟨?_, ?_⟩⟩
  · intro hacc
    refine (safeCutoff_iff hinv).mpr fun t => ?_
    by_contra hcut
    have hc := hcollT t
    rw [hinv.chainedRows_eq] at hc
    exact not_accepts_of_detects (detects_of_cut hinv hc hcut) (hacc t)
  · intro hcut t rows ord fuel hperm hfuel
    refine ⟨_, (inv_purge hinv hq hcut).verifyChain_eq ?_ hperm hfuel ord, rfl⟩
    have hc := hcollT t
    rw [hinv.chainedRows_eq] at hc
    rw [chainedRows_purged hinv]
    exact collisionFree_of_subset hc fun r hr => mem_of_mem_filter hr

def eventAt (n : UInt8) (time : Time) : AuditEvent :=
  { sampleEvent n with occurredAt := time }

def purgeGenesis : List Op :=
  [.insert (eventAt 2 1000) 0 UUID.nil, .insert (eventAt 3 5000) 0 UUID.nil, .purge 3000]

theorem retention_flags_survivor :
    (∀ op ∈ purgeGenesis, op.Faithful keepJson) ∧
    ∃ v, verifyChain ⟨id, List.Perm.refl⟩ 2 (selectTenant
        (run (apply keepJson) (initial [] 0) purgeGenesis).table
        (Vector.replicate 16 1)) = .ok v ∧ ¬ v.Intact := by
  refine ⟨?_, ⟨Vector.replicate 16 3, 5000, 0⟩, by decide +kernel, by decide⟩
  intro op _
  cases op with
  | insert e now bytes => exact fun e' _ => faithful_keepJson e'
  | purge cutoff => trivial

def purgeTail : List Op :=
  [.insert (eventAt 2 5000) 0 UUID.nil, .insert (eventAt 3 1000) 0 UUID.nil, .purge 3000]

theorem retention_runs_accepted_tail :
    Accepts (run (apply keepJson) (initial [] 0) purgeTail).table (Vector.replicate 16 1) := by
  refine (retention_runs_accepted keepJson [] 0 (by simp) purgeTail ?_
    ⟨trivial, trivial, ?_, trivial⟩ (by decide +kernel)).1 _
  · intro op _
    cases op with
    | insert e now bytes => exact fun e' _ => faithful_keepJson e'
    | purge cutoff => trivial
  · change SafeCutoff _ _
    decide +kernel

end OciJanus.Audit.Retention
