import OciJanus.Audit.Insert

/-!
# Tamper evidence

A table written by `Insert` alone is changed from outside: one chained row is replaced under its
stored hashes, or deleted.
-/

namespace OciJanus.Audit.Tamper

open List

open Verified Sha256 LinkedChain Run Audit.HashChain Audit.VerifyChain Audit.Exactness
  Audit.Insert

def Detects (table : List Row) (t : UUID) : Prop :=
  ∀ rows ord fuel, rows.Perm (selectTenant table t) → rows.length < fuel →
    ∃ v, verifyChain ord fuel rows = .ok v ∧ ¬ v.Intact

def recs (table : List Row) : List RowRec := table.map Row.toRowRec

theorem selectTenant_eq_filter (table : List Row) (t : UUID) :
    selectTenant table t = (recs table).filter fun r => r.ev.tenantID = t := by
  simp only [selectTenant, tenantRows, recs, filter_map]
  rfl

theorem chained_selectTenant_sublist (table : List Row) (t : UUID) :
    (chainedRows (selectTenant table t)).Sublist (chainedRows (recs table)) := by
  rw [selectTenant_eq_filter]
  exact filter_sublist.filter _

theorem detects_of_not_whole {table : List Row} {t : UUID}
    (hmeta : ∀ r ∈ chainedRows (recs table), ValidMetadata r.ev)
    (hcoll : CollisionFree (chainedRows (recs table)))
    (hown : ((chainedRows (recs table)).map links.own).Nodup)
    (hid : ∀ r ∈ chainedRows (recs table), r.ev.id ≠ UUID.nil)
    (hnot : ¬ Whole (selectTenant table t)) : Detects table t := by
  have hsub := chained_selectTenant_sublist table t
  have hcoll' : CollisionFree (chainedRows (selectTenant table t)) :=
    collisionFree_of_subset hcoll fun r hr => hsub.subset hr
  have hdec : Decided (selectTenant table t) :=
    decided_of_distinct hcoll' (hown.sublist (hsub.map _)) fun r hr => hid r (hsub.subset hr)
  intro rows ord fuel hperm hfuel
  obtain ⟨v, hv, hiff⟩ := verdict_of_decided
    (fun r hr => hmeta r (hsub.subset hr)) hcoll' hdec hperm hfuel ord
  exact ⟨v, hv, fun h => hnot (hiff.mp h)⟩

section Written

variable {jsonb : Bytes → Option Bytes} {base new gone : List Row} {s : Db}

theorem chainedRows_recs (h : Inv jsonb base new gone s) :
    chainedRows (recs s.table) = recs new := by
  have hb : chainedRows (recs base) = [] := by
    refine filter_eq_nil_iff.mpr fun r hr => ?_
    obtain ⟨row, hrow, rfl⟩ := mem_map.mp hr
    simp [h.base_pre row hrow]
  have hn : chainedRows (recs new) = recs new := by
    refine filter_eq_self.mpr fun r hr => ?_
    obtain ⟨row, hrow, rfl⟩ := mem_map.mp hr
    simp [(h.verified row hrow).1.not_preChain]
  have happ : chainedRows (recs base ++ recs new) =
      chainedRows (recs base) ++ chainedRows (recs new) := filter_append _ _
  rw [h.table_eq, recs, map_append]
  exact happ.trans (by rw [hb, hn, nil_append])

theorem segment_tenant (h : Inv jsonb base new gone s) (t : UUID) :
    Segment (recs new) (selectTenant new t) := by
  refine ⟨h.linked t, fun r hr => ⟨?_, h.verified_of_mem hr⟩⟩
  rw [selectTenant_eq_filter] at hr
  exact mem_of_mem_filter hr

variable (hcoll : CollisionFree (recs new))
include hcoll

theorem nodup_recs (h : Inv jsonb base new gone s) : (recs new).Nodup := by
  refine nodup_iff_count_le_one.mpr fun r => ?_
  have hnd := (segment_tenant h r.ev.tenantID).nodup hcoll
  rw [selectTenant_eq_filter] at hnd
  rw [← count_filter (p := fun x => decide (x.ev.tenantID = r.ev.tenantID)) (by simp)]
  exact nodup_iff_count_le_one.mp hnd r

theorem nodup_own (h : Inv jsonb base new gone s) (hframed : ∀ r ∈ recs new, FieldsFramed r.ev) :
    ((recs new).map links.own).Nodup := by
  refine (nodup_map_iff_inj_on (nodup_recs hcoll h)).mpr ?_
  intro r hr x hx heq
  have hverified : ∀ y ∈ recs new, Verifies y := by
    intro y hy
    obtain ⟨row, hrow, rfl⟩ := mem_map.mp hy
    exact (h.verified row hrow).1
  have htenant : r.ev.tenantID = x.ev.tenantID :=
    (sameContent_of_verifies hcoll hr hx (hframed r hr) (hframed x hx)
      (hverified r hr) (hverified x hx) heq).tenantID
  have hseg := segment_tenant h x.ev.tenantID
  have hown := hseg.1.nodup_own hseg.2 (rooted_of_collisionFree hcoll)
  have hmem : ∀ y ∈ recs new, y.ev.tenantID = x.ev.tenantID →
      y ∈ selectTenant new x.ev.tenantID := by
    intro y hy hty
    rw [selectTenant_eq_filter]
    exact mem_filter.mpr ⟨hy, by simpa using hty⟩
  exact inj_on_of_nodup_map hown (hmem r hr htenant) (hmem x hx rfl) heq

end Written

def replaceEvent (r : Row) (e : AuditEvent) : Row :=
  { r with ev := e }

theorem isPreChain_replaceEvent (r : Row) (e : AuditEvent) :
    isPreChain (replaceEvent r e).toRowRec = isPreChain r.toRowRec := rfl

section Changed

variable {jsonb : Bytes → Option Bytes} {base new gone : List Row} {s : Db}
variable {pre post : List Row} {r : Row} {e : AuditEvent}

theorem chainedRows_split (hr : isPreChain r.toRowRec = false) :
    chainedRows (recs (pre ++ r :: post)) =
      chainedRows (recs pre) ++ r.toRowRec :: chainedRows (recs post) := by
  simp [chainedRows, recs, hr]

theorem own_replaced (hr : isPreChain r.toRowRec = false) :
    (chainedRows (recs (pre ++ replaceEvent r e :: post))).map links.own =
      (chainedRows (recs (pre ++ r :: post))).map links.own := by
  rw [chainedRows_split hr, chainedRows_split ((isPreChain_replaceEvent r e).trans hr)]
  simp [replaceEvent]

theorem mem_replaced (hr : isPreChain r.toRowRec = false) {x : RowRec}
    (hx : x ∈ chainedRows (recs (pre ++ replaceEvent r e :: post))) :
    x ∈ chainedRows (recs (pre ++ r :: post)) ∨ x = (replaceEvent r e).toRowRec := by
  rw [chainedRows_split ((isPreChain_replaceEvent r e).trans hr)] at hx
  rw [chainedRows_split hr]
  simp only [mem_append, mem_cons] at hx ⊢
  tauto

theorem removed_sublist :
    (chainedRows (recs (pre ++ post))).Sublist (chainedRows (recs (pre ++ r :: post))) := by
  refine List.Sublist.filter _ (List.Sublist.map _ ?_)
  exact (sublist_cons_self r post).append_left pre

theorem written_rows (h : Inv jsonb base new gone s) {x : RowRec}
    (hx : x ∈ chainedRows (recs s.table)) : Verifies x ∧ x.ev.id ≠ UUID.nil := by
  rw [chainedRows_recs h] at hx
  obtain ⟨row, hrow, rfl⟩ := mem_map.mp hx
  exact h.verified row hrow

variable (h : Inv jsonb base new gone s)
variable (hframed : ∀ x ∈ chainedRows (recs s.table), FieldsFramed x.ev)
variable (hsplit : s.table = pre ++ r :: post)
variable (hr : isPreChain r.toRowRec = false)
include h hframed hsplit hr

theorem replaced_detected (hdiff : ¬ SameContent r.ev e) (hid : e.id ≠ UUID.nil)
    (hmeta : ValidMetadata e) (hfe : FieldsFramed e)
    (hcoll : CollisionFree (chainedRows (recs s.table) ++
      [(replaceEvent r e).toRowRec])) : Detects (pre ++ replaceEvent r e :: post) e.tenantID := by
  have hcoll₀ : CollisionFree (chainedRows (recs s.table)) :=
    collisionFree_of_subset hcoll fun x hx => by simp [hx]
  have hown : ((chainedRows (recs s.table)).map links.own).Nodup := by
    rw [chainedRows_recs h] at hcoll₀ hframed ⊢
    exact nodup_own hcoll₀ h hframed
  have hmem : ∀ x ∈ chainedRows (recs (pre ++ replaceEvent r e :: post)),
      x ∈ chainedRows (recs s.table) ∨ x = (replaceEvent r e).toRowRec := by
    intro x hx
    rw [hsplit]
    exact mem_replaced hr hx
  have hrmem : r.toRowRec ∈ chainedRows (recs s.table) := by
    rw [hsplit, chainedRows_split hr]
    simp
  -- the replaced row would recompute only with its old content
  have hbroken : ¬ Verifies (replaceEvent r e).toRowRec := fun hv =>
    hdiff (sameContent_of_verifies hcoll (r := r.toRowRec)
      (s := (replaceEvent r e).toRowRec) (by simp [hrmem]) (by simp)
      (hframed _ hrmem) hfe (written_rows h hrmem).1 hv rfl)
  refine detects_of_not_whole ?_ ?_ ?_ ?_ ?_
  · intro x hx
    rcases hmem x hx with hx | rfl
    · exact (written_rows h hx).1.validMetadata
    · exact hmeta
  · exact collisionFree_of_subset hcoll fun x hx => by simpa using hmem x hx
  · rw [own_replaced hr, ← hsplit]
    exact hown
  · intro x hx
    rcases hmem x hx with hx | rfl
    · exact (written_rows h hx).2
    · exact hid
  · intro hwhole
    refine hbroken (hwhole.ok_of_mem (mem_chainedRows.mpr
      ⟨?_, (isPreChain_replaceEvent r e).trans hr⟩))
    rw [selectTenant_eq_filter]
    exact mem_filter.mpr ⟨by simp [recs], by simp [replaceEvent]⟩

theorem removed_detected (hcoll : CollisionFree (chainedRows (recs s.table)))
    (hsucc : ∃ x ∈ pre ++ post, x.ev.tenantID = r.ev.tenantID ∧
      x.prevHash = r.rowHash) : Detects (pre ++ post) r.ev.tenantID := by
  have hown : ((chainedRows (recs s.table)).map links.own).Nodup := by
    rw [chainedRows_recs h] at hcoll hframed ⊢
    exact nodup_own hcoll h hframed
  have hsub : (chainedRows (recs (pre ++ post))).Sublist
      (chainedRows (recs s.table)) := hsplit ▸ removed_sublist
  have hrmem : r.toRowRec ∈ chainedRows (recs s.table) := by
    rw [hsplit, chainedRows_split hr]
    simp
  have hlen : r.rowHash.length = 32 :=
    computeRowHash_length (written_rows h hrmem).1
  refine detects_of_not_whole (fun x hx => (written_rows h (hsub.subset hx)).1.validMetadata)
    (collisionFree_of_subset hcoll fun x hx => hsub.subset hx)
    (hown.sublist (hsub.map _))
    (fun x hx => (written_rows h (hsub.subset hx)).2) ?_
  obtain ⟨x, hx, htenant, hprev⟩ := hsucc
  have hne : x.prevHash ≠ [0x00] := by
    intro h0
    rw [← hprev, h0] at hlen
    simp at hlen
  refine Links.not_arranged_of_missing (r := x.toRowRec) (mem_chainedRows.mpr ⟨?_, ?_⟩) hne ?_
  · rw [selectTenant_eq_filter]
    exact mem_filter.mpr ⟨mem_map_of_mem hx, by simpa using htenant⟩
  · rw [Bool.eq_false_iff]
    intro hpre
    simp only [isPreChain, Bool.and_eq_true, bytesEqual_iff] at hpre
    exact hne hpre.1
  · -- the hash of the removed row occurs nowhere else
    intro y hy heq
    have hy' := (chained_selectTenant_sublist _ _).subset hy
    rw [hsplit, chainedRows_split hr, map_append, map_cons] at hown
    have hnot := (nodup_middle.mp hown)
    rw [nodup_cons, ← map_append] at hnot
    refine hnot.1 (mem_map.mpr ⟨y, ?_, heq.trans hprev⟩)
    simpa [chainedRows, recs] using hy'

end Changed

theorem selectTenant_moved {pre post : List Row} {r : Row} {e : AuditEvent} {t : UUID}
    (h : e.tenantID ≠ t) :
    selectTenant (pre ++ replaceEvent r e :: post) t = selectTenant (pre ++ post) t := by
  simp [selectTenant, tenantRows, replaceEvent, h]

/-- **Replaced and deleted rows are detected.** -/
theorem tampering_detected (jsonb : Bytes → Option Bytes) (base : List Row)
    (seq : Nat) (hbase : ∀ r ∈ base, isPreChain r.toRowRec = true ∧ r.chainSeq < seq)
    (acts : List Action) (hacts : ∀ a ∈ acts, a.Faithful jsonb) (pre post : List Row) (r : Row)
    (hsplit : (run (step jsonb) (initial base seq) acts).table = pre ++ r :: post)
    (hr : isPreChain r.toRowRec = false)
    (hframed : ∀ x ∈ chainedRows (recs (pre ++ r :: post)), FieldsFramed x.ev)
    (hcoll : CollisionFree (chainedRows (recs (pre ++ r :: post)))) :
    (∀ e : AuditEvent, ¬ SameContent r.ev e → e.id ≠ UUID.nil → ValidMetadata e → FieldsFramed e →
      CollisionFree (chainedRows (recs (pre ++ r :: post)) ++ [(replaceEvent r e).toRowRec]) →
      Detects (pre ++ replaceEvent r e :: post) e.tenantID ∧
      (e.tenantID ≠ r.ev.tenantID →
        (∃ x ∈ pre ++ post, x.ev.tenantID = r.ev.tenantID ∧ x.prevHash = r.rowHash) →
        Detects (pre ++ replaceEvent r e :: post) r.ev.tenantID)) ∧
    ((∃ x ∈ pre ++ post, x.ev.tenantID = r.ev.tenantID ∧ x.prevHash = r.rowHash) →
      Detects (pre ++ post) r.ev.tenantID) := by
  obtain ⟨new, hinv⟩ := run_inv hbase hacts
  rw [← hsplit] at hframed hcoll
  have hremoved := removed_detected hinv hframed hsplit hr hcoll
  refine ⟨fun e hdiff hid hmeta hfe hcoll' => ⟨?_, fun hmoved hsucc => ?_⟩, hremoved⟩
  · rw [← hsplit] at hcoll'
    exact replaced_detected hinv hframed hsplit hr hdiff hid hmeta hfe hcoll'
  · intro rows ord fuel hperm hfuel
    rw [selectTenant_moved hmoved] at hperm
    exact hremoved hsucc rows ord fuel hperm hfuel

def storedRow (prev : Bytes) (n : UInt8) (seq : Nat) : Row :=
  { sealedRow prev { sampleEvent n with
      metadata := some (Verified.Utf8.stringBytes "\x7b\x7d") } with chainSeq := seq }

def firstRow : Row := storedRow genesisPrevHash 2 0

def secondRow : Row := storedRow firstRow.rowHash 3 1

theorem twoInserts_table :
    (run (step keepJson) (initial [] 0) twoInserts).table = [] ++ firstRow :: [secondRow] := by
  decide +kernel

def turnedOutcome : AuditEvent := { firstRow.ev with outcome := "failure" }

theorem turnedOutcome_collisionFree :
    CollisionFree (chainedRows (recs ([] ++ firstRow :: [secondRow])) ++
      [(replaceEvent firstRow turnedOutcome).toRowRec]) := by
  decide +kernel

theorem tampering_detected_first :
    Detects ([] ++ replaceEvent firstRow turnedOutcome :: [secondRow]) (Vector.replicate 16 1) ∧
      Detects ([] ++ [secondRow]) (Vector.replicate 16 1) := by
  have h := tampering_detected keepJson [] 0 (by simp) twoInserts
    (fun a _ => action_faithful_keepJson a) [] [secondRow] firstRow twoInserts_table
    (by decide +kernel) (by decide +kernel)
    (collisionFree_of_subset turnedOutcome_collisionFree fun x hx =>
      mem_append_left _ hx)
  refine ⟨(h.1 turnedOutcome (fun hsame => absurd hsame.outcome (by decide))
    (by decide) (by decide +kernel) (by decide +kernel) turnedOutcome_collisionFree).1,
    h.2 ⟨secondRow, by simp, rfl, rfl⟩⟩

theorem tampering_missed :
    (run (step keepJson) (initial [] 0) [.begin (sampleEvent 2) 0, .exec 0 .lock,
        .exec 0 .readTip, .exec 0 (.insert UUID.nil), .exec 0 .commit]).table =
      [firstRow] ∧
    (∃ e : AuditEvent, ¬ SameContent firstRow.ev e ∧
      verifyChain ⟨id, List.Perm.refl⟩ 2 (selectTenant [replaceEvent firstRow e]
        (Vector.replicate 16 1)) = .ok (clean 0)) ∧
    (∃ e : AuditEvent, ¬ SameContent firstRow.ev e ∧ e.tenantID = firstRow.ev.tenantID ∧
      verifyChain ⟨id, List.Perm.refl⟩ 2 (selectTenant [replaceEvent firstRow e]
        (Vector.replicate 16 1)) = .ok (clean 0)) ∧
    (clean 0).Intact := by
  refine ⟨by decide +kernel, ⟨{ firstRow.ev with tenantID := Vector.replicate 16 7 },
      fun h => absurd h.tenantID (by decide), by decide +kernel⟩,
    ⟨{ firstRow.ev with id := UUID.nil }, fun h => absurd h.id (by decide), rfl,
      by decide +kernel⟩, rfl⟩

end OciJanus.Audit.Tamper
