import OciJanus.Audit.VerifyChain

/-!
# Which tables `VerifyChain` decides

The verdict is right in every order exactly on the tables that are whole, or have suspects, none
of them with the nil id.
-/

namespace OciJanus.Audit.Exactness

open Verified.Sha256 Verified.LinkedChain Audit.HashChain Audit.VerifyChain List

def SharesPrev (table : List RowRec) (r : RowRec) : Prop :=
  r ∈ table ∧ ∃ s ∈ table.erase r, s.prevHash = r.prevHash

def Segment (table l : List RowRec) : Prop :=
  links.Linked genesisPrevHash l ∧ ∀ r ∈ l, r ∈ table ∧ Verifies r

def Tampered (table : List RowRec) (r : RowRec) : Prop :=
  r ∈ table ∧ ¬ Verifies r ∧ ∃ l, Segment table l ∧ r.prevHash = links.tip genesisPrevHash l

def Unreached (table : List RowRec) (r : RowRec) : Prop :=
  r ∈ table ∧ ∀ l, Segment table l → r.rowHash ∉ l.map links.own

def Unforked (table : List RowRec) : Prop := (table.map links.prev).Nodup

inductive Suspect (table : List RowRec) (r : RowRec) : Prop where
  | forked (h : SharesPrev table r)
  | tampered (hnd : Unforked table) (h : Tampered table r)
  | orphan (hnd : Unforked table) (hok : ∀ s, ¬ Tampered table s) (h : Unreached table r)

def Decided (rows : List RowRec) : Prop :=
  Whole rows ∨ ((∃ r, Suspect (chainedRows rows) r) ∧
    ∀ r, Suspect (chainedRows rows) r → r.ev.id ≠ UUID.nil)

variable {t t' : List RowRec} {r : RowRec}

theorem SharesPrev.of_perm (hp : t.Perm t') (h : SharesPrev t r) : SharesPrev t' r := by
  obtain ⟨hr, s, hs, heq⟩ := h
  exact ⟨hp.mem_iff.mp hr, s, (hp.erase r).mem_iff.mp hs, heq⟩

theorem Segment.of_perm (hp : t.Perm t') {l : List RowRec} (h : Segment t l) : Segment t' l :=
  ⟨h.1, fun r hr => ⟨hp.mem_iff.mp (h.2 r hr).1, (h.2 r hr).2⟩⟩

theorem Tampered.of_perm (hp : t.Perm t') (h : Tampered t r) : Tampered t' r := by
  obtain ⟨hr, hv, l, hl, heq⟩ := h
  exact ⟨hp.mem_iff.mp hr, hv, l, hl.of_perm hp, heq⟩

theorem Unreached.of_perm (hp : t.Perm t') (h : Unreached t r) : Unreached t' r :=
  ⟨hp.mem_iff.mp h.1, fun l hl => h.2 l (hl.of_perm hp.symm)⟩

theorem Unforked.of_perm (hp : t.Perm t') (h : Unforked t) : Unforked t' :=
  (hp.map links.prev).nodup_iff.mp h

theorem Suspect.of_perm (hp : t.Perm t') (h : Suspect t r) : Suspect t' r := by
  cases h with
  | forked h => exact .forked (h.of_perm hp)
  | tampered hnd h => exact .tampered (hnd.of_perm hp) (h.of_perm hp)
  | orphan hnd hok h =>
    exact .orphan (hnd.of_perm hp) (fun s hs => hok s (hs.of_perm hp.symm)) (h.of_perm hp)

theorem SharesPrev.not_unforked (h : SharesPrev t r) : ¬ Unforked t := by
  intro hnd
  obtain ⟨hr, s, hs, heq⟩ := h
  have hcons : Unforked (r :: t.erase r) := hnd.of_perm (perm_cons_erase hr)
  simp only [Unforked, map_cons, nodup_cons, links_prev] at hcons
  exact hcons.1 (mem_map.mpr ⟨s, hs, heq⟩)

theorem rooted_of_collisionFree {table : List RowRec} (h : CollisionFree table) :
    Links.Rooted links genesisPrevHash fun r => r ∈ table ∧ Verifies r := by
  refine ⟨?_, ?_⟩
  · rintro r s ⟨hr, hvr⟩ ⟨hs, hvs⟩ heq
    simp only [links_own] at heq
    refine (computeRowHash_inj (h.mono ?_) hvr (Eq.trans hvs (congrArg some heq.symm))).1
    rintro m (hm | hm)
    · exact mem_flatMap.mpr ⟨r, hr, hm⟩
    · exact mem_flatMap.mpr ⟨s, hs, hm⟩
  · rintro r ⟨-, hv⟩ heq
    simp only [links_own] at heq
    exact computeRowHash_ne_genesis (Eq.trans hv (congrArg some heq))

theorem sameContent_of_verifies {table : List RowRec} (h : CollisionFree table)
    {s : RowRec} (hr : r ∈ table) (hs : s ∈ table) (hfr : FieldsFramed r.ev)
    (hfs : FieldsFramed s.ev) (hvr : Verifies r) (hvs : Verifies s)
    (heq : r.rowHash = s.rowHash) : SameContent r.ev s.ev := by
  have hcoll : NoCollision {m | m ∈ hashInputs r.prevHash r.ev ∨
      m ∈ hashInputs s.prevHash s.ev} := by
    refine h.mono ?_
    rintro m (hm | hm)
    · exact mem_flatMap.mpr ⟨r, hr, hm⟩
    · exact mem_flatMap.mpr ⟨s, hs, hm⟩
  obtain ⟨payload, hp, -⟩ := computeRowHash_eq hvr
  have hpayload := (computeRowHash_inj hcoll hvr (Eq.trans hvs (congrArg some heq.symm))).2
  exact sameContent_of_payload_eq hfr hfs hp (hpayload.symm.trans hp)

theorem collisionFree_of_subset (h : CollisionFree t')
    (hsub : ∀ r ∈ t, r ∈ t') : CollisionFree t := by
  refine h.mono fun m hm => ?_
  obtain ⟨r, hr, hm⟩ := mem_flatMap.mp hm
  exact mem_flatMap.mpr ⟨r, hsub r hr, hm⟩

abbrev covered (table : List RowRec) (fuel : Nat) : List RowRec :=
  links.trail table (fun r => Verifies r) fuel genesisPrevHash

section Walked

variable {table : List RowRec} {fuel : Nat}

theorem segment_covered : Segment table (covered table fuel) := by
  refine ⟨Links.trail_linked _ _, fun r hr => ?_⟩
  simpa using Links.trail_mem _ _ r hr

variable (hcoll : CollisionFree table)
include hcoll

variable {l : List RowRec}

theorem Segment.nodup (h : Segment table l) : l.Nodup :=
  h.1.nodup h.2 (rooted_of_collisionFree hcoll)

theorem Segment.subperm (h : Segment table l) : l.Subperm table :=
  subperm_of_subset (h.nodup hcoll) fun r hr => (h.2 r hr).1

theorem Segment.length_le (h : Segment table l) : l.length ≤ table.length :=
  (h.subperm hcoll).length_le

theorem Segment.prefix_covered (hnd : Unforked table)
    (hfuel : table.length < fuel) (h : Segment table l) : l <+: covered table fuel := by
  refine Links.prefix_trail hnd h.1 (fun r hr => ?_) ?_
  · simpa using h.2 r hr
  · exact (h.length_le hcoll).trans hfuel.le

theorem covered_length_lt (hfuel : table.length < fuel) : (covered table fuel).length < fuel :=
  (segment_covered.length_le hcoll).trans_lt hfuel

theorem Tampered.prev_eq (hnd : Unforked table) (hfuel : table.length < fuel)
    {r : RowRec} (h : Tampered table r) :
    r.prevHash = links.tip genesisPrevHash (covered table fuel) := by
  obtain ⟨hr, hv, l, hl, heq⟩ := h
  obtain ⟨m, hm⟩ := hl.prefix_covered hcoll hnd hfuel
  cases m with
  | nil => rw [← hm, append_nil, heq]
  | cons x m =>
    -- a covered row would continue the same key, hence be the tampered row
    exfalso
    have hcov : Segment table (covered table fuel) := segment_covered
    rw [← hm] at hcov
    have hx := hcov.2 x (by simp)
    have hprev := ((links.linked_append _ _ _).mp hcov.1).2.1
    have : x = r := inj_on_of_nodup_map hnd hx.1 hr (hprev.trans heq.symm)
    exact hv (this ▸ hx.2)

end Walked

theorem verifyChain_forked {rows : List RowRec} (ord : MapOrder) (fuel : Nat)
    (hnd : ¬ Unforked (chainedRows rows)) :
    ∃ r unv, SharesPrev (chainedRows rows) r ∧ verifyChain ord fuel rows = .ok (flag r unv) := by
  obtain ⟨pre, r, post, unv, hsplit, ⟨s, hs, heq⟩, hscan⟩ :=
    scan_of_fork rows ⟨[], 0, 0⟩ (by simp) (by simpa [Unforked] using hnd)
  refine ⟨r, unv, ⟨by simp [hsplit], s, ?_, heq⟩, by simp [verifyChain, hscan]⟩
  have hperm : (chainedRows rows).Perm (r :: (pre ++ post)) :=
    hsplit ▸ perm_middle
  have herase : ((chainedRows rows).erase r).Perm (pre ++ post) := by
    simpa using hperm.erase r
  exact herase.mem_iff.mpr (by simp at hs; simp [hs])

theorem verifyChain_unforked {rows : List RowRec} (ord : MapOrder) (fuel : Nat)
    (hnd : Unforked (chainedRows rows)) :
    verifyChain ord fuel rows = match links.next (chainedRows rows) genesisPrevHash with
      | some _ => walkChain ord fuel
          ⟨chainedRows rows, (chainedRows rows).length, preChainCount rows⟩
      | none =>
        match ord.order (chainedRows rows) with
        | r :: _ => .ok (flag r (preChainCount rows))
        | [] => .ok (clean (preChainCount rows)) := by
  have hscan := scan_of_nodup rows ⟨[], 0, 0⟩ (by simpa [Unforked] using hnd)
  simp only [nil_append, Nat.zero_add] at hscan
  simp only [verifyChain, hscan]
  cases links.next (chainedRows rows) genesisPrevHash with
  | some g => rfl
  | none =>
    have hlen := (ord.perm (chainedRows rows)).length_eq
    cases hord : ord.order (chainedRows rows) with
    | nil | cons => simp [← hlen, hord]

section Verdicts

variable {rows : List RowRec} {fuel : Nat}
variable (hmeta : ∀ r ∈ chainedRows rows, ValidMetadata r.ev)
variable (hcoll : CollisionFree (chainedRows rows)) (hfuel : rows.length < fuel)
include hmeta hcoll hfuel

theorem walk_covered :
    walk (chainedRows rows) fuel (links.next (chainedRows rows) genesisPrevHash) 0 =
      match links.next (chainedRows rows) (links.tip genesisPrevHash
          (covered (chainedRows rows) fuel)) with
      | none => .tip (covered (chainedRows rows) fuel).length
      | some r => .bad r := by
  have hlt := covered_length_lt hcoll ((chainedRows_length_le rows).trans_lt hfuel)
  have hwalk := walk_eq hmeta fuel genesisPrevHash 0 hlt
  rwa [Nat.zero_add] at hwalk

variable (hnd : Unforked (chainedRows rows))
include hnd

theorem verifyChain_tampered (ord : MapOrder) {r : RowRec}
    (hr : links.next (chainedRows rows) (links.tip genesisPrevHash
      (covered (chainedRows rows) fuel)) = some r) :
    verifyChain ord fuel rows = .ok (flag r (preChainCount rows)) := by
  rw [verifyChain_unforked ord fuel hnd]
  cases hgen : links.next (chainedRows rows) genesisPrevHash with
  | some g =>
    have hwalk := walk_covered hmeta hcoll hfuel
    simp only [hr, hgen] at hwalk
    simp [walkChain, hgen, hwalk]
  | none =>
    -- nothing is covered, so the row would be the missing genesis row
    obtain ⟨fuel, rfl⟩ : ∃ n, fuel = n + 1 := ⟨fuel - 1, by omega⟩
    simp [covered, Links.trail, hgen] at hr

theorem verifyChain_orphans (ord : MapOrder)
    (htip : links.next (chainedRows rows) (links.tip genesisPrevHash
      (covered (chainedRows rows) fuel)) = none) :
    verifyChain ord fuel rows =
      .ok (firstHit (preChainCount rows) ((ord.order (chainedRows rows)).find?
        fun r => !((covered (chainedRows rows) fuel).map links.own).contains r.rowHash)) := by
  have hfuel' := (chainedRows_length_le rows).trans_lt hfuel
  rw [verifyChain_unforked ord fuel hnd]
  cases hgen : links.next (chainedRows rows) genesisPrevHash with
  | none =>
    obtain ⟨fuel, rfl⟩ : ∃ n, fuel = n + 1 := ⟨fuel - 1, by omega⟩
    cases hord : ord.order (chainedRows rows) <;>
      simp [covered, Links.trail, hgen, firstHit]
  | some g =>
    have hwalk := walk_covered hmeta hcoll hfuel
    simp only [htip, hgen] at hwalk
    simp only [walkChain, hgen, hwalk]
    split
    · have hreach := reach_eq fuel genesisPrevHash [] (covered_length_lt hcoll hfuel') htip
      rw [hgen] at hreach
      simp only [hreach, append_nil, contains_eq_mem, mem_reverse]
    · -- every bucketed row was seen, so every row hash is covered
      rename_i hlen
      have hperm := (segment_covered.subperm hcoll).perm_of_length_le (not_not.mp hlen).ge
      have hnone : (ord.order (chainedRows rows)).find? (fun r =>
          !((covered (chainedRows rows) fuel).map links.own).contains r.rowHash) =
            none := by
        refine List.find?_eq_none.mpr fun r hr => ?_
        have hmem := hperm.mem_iff.mpr ((ord.perm _).mem_iff.mp hr)
        simpa using ⟨r, hmem, rfl⟩
      rw [hnone, firstHit]

end Verdicts

section Reports

variable {rows : List RowRec} {fuel : Nat}
variable (hmeta : ∀ r ∈ chainedRows rows, ValidMetadata r.ev)
variable (hcoll : CollisionFree (chainedRows rows)) (hfuel : rows.length < fuel)
include hmeta hcoll hfuel

theorem verifyChain_reports (ord : MapOrder) :
    (∃ r unv, Suspect (chainedRows rows) r ∧ verifyChain ord fuel rows = .ok (flag r unv)) ∨
    ((∀ r, ¬ Suspect (chainedRows rows) r) ∧
      verifyChain ord fuel rows = .ok (clean (preChainCount rows))) := by
  have hfuel' := (chainedRows_length_le rows).trans_lt hfuel
  by_cases hnd : Unforked (chainedRows rows)
  · cases htip : links.next (chainedRows rows) (links.tip genesisPrevHash
        (covered (chainedRows rows) fuel)) with
    | some r =>
      have hbad := Links.trail_stop _ _ (covered_length_lt hcoll hfuel') r htip
      refine .inl ⟨r, _, .tampered hnd ⟨Links.mem_of_next htip, ?_,
        _, segment_covered, Links.prev_of_next htip⟩,
        verifyChain_tampered hmeta hcoll hfuel hnd ord htip⟩
      simpa using hbad
    | none =>
      have hok : ∀ s, ¬ Tampered (chainedRows rows) s := fun s hs =>
        Links.next_eq_none_iff.mp htip s hs.1 (hs.prev_eq hcoll hnd hfuel')
      have hrun := verifyChain_orphans hmeta hcoll hfuel hnd ord htip
      cases hfind : (ord.order (chainedRows rows)).find? (fun r =>
          !((covered (chainedRows rows) fuel).map links.own).contains r.rowHash) with
      | some r =>
        rw [hfind, firstHit] at hrun
        refine .inl ⟨r, _, .orphan hnd hok ⟨(ord.perm _).mem_iff.mp
          (mem_of_find?_eq_some hfind), fun l hl hmem => ?_⟩, hrun⟩
        have hcov : r.rowHash ∈ (covered (chainedRows rows) fuel).map links.own :=
          ((hl.prefix_covered hcoll hnd hfuel').map _).subset hmem
        simpa [hcov] using List.find?_some hfind
      | none =>
        rw [hfind, firstHit] at hrun
        refine .inr ⟨fun r hr => ?_, hrun⟩
        cases hr with
        | forked h => exact h.not_unforked hnd
        | tampered _ h => exact hok r h
        | orphan _ _ h =>
          have := List.find?_eq_none.mp hfind r ((ord.perm _).mem_iff.mpr h.1)
          simp only [Bool.not_eq_true, Bool.not_eq_false', contains_iff_mem] at this
          exact h.2 _ segment_covered this
  · obtain ⟨r, unv, hr, hrun⟩ := verifyChain_forked ord fuel hnd
    exact .inl ⟨r, unv, .forked hr, hrun⟩

end Reports

def visitFirst (r : RowRec) : MapOrder where
  order l := if r ∈ l then r :: l.erase r else l
  perm l := by
    split
    · rename_i h
      exact (perm_cons_erase h).symm
    · exact List.Perm.refl l

theorem verifyChain_can_report {rows : List RowRec} {fuel : Nat}
    (hmeta : ∀ r ∈ chainedRows rows, ValidMetadata r.ev)
    (hcoll : CollisionFree (chainedRows rows)) (hfuel : rows.length < fuel)
    (hr : Suspect (chainedRows rows) r) :
    ∃ rows' ord unv, rows'.Perm rows ∧ verifyChain ord fuel rows' = .ok (flag r unv) := by
  have hfuel' := (chainedRows_length_le rows).trans_lt hfuel
  cases hr with
  | forked h =>
    -- read the other row of the fork first, then `r`
    obtain ⟨hr, s, hs, heq⟩ := h
    have hrpre := (mem_chainedRows.mp hr).2
    have hspre := (mem_chainedRows.mp (mem_of_mem_erase hs)).2
    have hperm : (s :: r :: (((chainedRows rows).erase r).erase s) ++
        rows.filter isPreChain).Perm rows := by
      have hchain : (s :: r :: (((chainedRows rows).erase r).erase s)).Perm (chainedRows rows) :=
        (List.Perm.swap _ _ _).trans (((perm_cons_erase hs).symm.cons r).trans
          (perm_cons_erase hr).symm)
      refine (hchain.append_right _).trans (perm_append_comm.trans ?_)
      simpa [chainedRows] using filter_append_perm isPreChain rows
    refine ⟨_, visitFirst r, 0, hperm, ?_⟩
    simp [verifyChain, scan, hspre, hrpre, Links.next, heq]
  | tampered hnd h =>
    -- any order reports the only tampered row
    have hprev := h.prev_eq hcoll hnd hfuel'
    refine ⟨rows, visitFirst r, _, List.Perm.refl rows,
      verifyChain_tampered hmeta hcoll hfuel hnd _ ?_⟩
    rw [← hprev]
    exact Links.next_prev hnd h.1
  | orphan hnd hok h =>
    refine ⟨rows, visitFirst r, preChainCount rows, List.Perm.refl rows, ?_⟩
    have htip : links.next (chainedRows rows) (links.tip genesisPrevHash
        (covered (chainedRows rows) fuel)) = none := by
      refine Option.eq_none_iff_forall_ne_some.mpr fun s hs => ?_
      have hbad := Links.trail_stop _ _ (covered_length_lt hcoll hfuel') s hs
      exact hok s ⟨Links.mem_of_next hs, by simpa using hbad, _,
        segment_covered, Links.prev_of_next hs⟩
    rw [verifyChain_orphans hmeta hcoll hfuel hnd _ htip]
    have hout : ((covered (chainedRows rows) fuel).map links.own).contains r.rowHash = false := by
      simpa using h.2 _ segment_covered
    have hfind : ((visitFirst r).order (chainedRows rows)).find? (fun s =>
        !((covered (chainedRows rows) fuel).map links.own).contains s.rowHash) =
          some r := by
      simp only [visitFirst, if_pos h.1]
      exact List.find?_cons_of_pos (by rw [hout]; rfl)
    rw [hfind, firstHit]

theorem not_suspect_of_whole {rows : List RowRec}
    (hcoll : CollisionFree (chainedRows rows)) (h : Whole rows) (r : RowRec) :
    ¬ Suspect (chainedRows rows) r := by
  obtain ⟨l, hperm, hlink, hv⟩ := h
  have hmem : ∀ s ∈ l, s ∈ chainedRows rows ∧ Verifies s := fun s hs =>
    ⟨hperm.mem_iff.mp hs, hv s hs⟩
  have hnd : Unforked (chainedRows rows) := (hperm.map _).nodup_iff.mp
    (hlink.nodup_prev hmem (rooted_of_collisionFree hcoll))
  intro hr
  cases hr with
  | forked h => exact h.not_unforked hnd
  | tampered _ h => exact h.2.1 (hv r (hperm.mem_iff.mpr h.1))
  | orphan _ _ h =>
    exact h.2 l ⟨hlink, hmem⟩ (mem_map.mpr ⟨r, hperm.mem_iff.mpr h.1, rfl⟩)

theorem verifyChain_of_whole {rows : List RowRec} {fuel : Nat}
    (hmeta : ∀ r ∈ chainedRows rows, ValidMetadata r.ev)
    (hcoll : CollisionFree (chainedRows rows)) (hfuel : rows.length < fuel)
    (h : Whole rows) (ord : MapOrder) :
    verifyChain ord fuel rows = .ok (clean (preChainCount rows)) := by
  rcases verifyChain_reports hmeta hcoll hfuel ord with ⟨r, -, hr, -⟩ | ⟨-, hrun⟩
  · exact absurd hr (not_suspect_of_whole hcoll h r)
  · exact hrun

theorem verdict_of_decided {rows rows' : List RowRec} {fuel : Nat}
    (hmeta : ∀ r ∈ chainedRows rows, ValidMetadata r.ev)
    (hcoll : CollisionFree (chainedRows rows)) (hdec : Decided rows)
    (hperm : rows'.Perm rows) (hfuel : rows'.length < fuel) (ord : MapOrder) :
    ∃ v, verifyChain ord fuel rows' = .ok v ∧ (v.Intact ↔ Whole rows) := by
  have hchain := chainedRows_perm hperm
  have hmeta' : ∀ r ∈ chainedRows rows', ValidMetadata r.ev := fun r hr =>
    hmeta r (hchain.mem_iff.mp hr)
  have hcoll' : CollisionFree (chainedRows rows') :=
    collisionFree_of_subset hcoll fun r hr => hchain.mem_iff.mp hr
  have hwhole' : Whole rows ↔ Whole rows' :=
    ⟨fun h => h.of_perm hchain.symm, fun h => h.of_perm hchain⟩
  rcases verifyChain_reports hmeta' hcoll' hfuel ord with
    ⟨r, unv, hr, hrun⟩ | ⟨hnone, hrun⟩
  · refine ⟨_, hrun, ?_⟩
    have hnot : ¬ Whole rows := fun h =>
      not_suspect_of_whole hcoll' (hwhole'.mp h) r hr
    have hid : r.ev.id ≠ UUID.nil :=
      (hdec.resolve_left hnot).2 r (hr.of_perm hchain)
    exact iff_of_false hid hnot
  · refine ⟨_, hrun, iff_of_true rfl (hdec.resolve_right ?_)⟩
    rintro ⟨⟨r, hr⟩, -⟩
    exact hnone r (hr.of_perm hchain.symm)

/-- **When the verdict is exact**: on a whole table, or with suspects, none under the nil id. -/
theorem verifyChain_exact_iff (rows : List RowRec)
    (hmeta : ∀ r ∈ chainedRows rows, ValidMetadata r.ev)
    (hcoll : CollisionFree (chainedRows rows)) :
    (∀ rows' ord fuel, rows'.Perm rows → rows'.length < fuel →
      ∃ v, verifyChain ord fuel rows' = .ok v ∧ (v.Intact ↔ Whole rows)) ↔
    Decided rows := by
  constructor
  · intro hexact
    by_cases hwhole : Whole rows
    · exact .inl hwhole
    refine .inr ⟨?_, fun r hr hnil => ?_⟩
    · by_contra hnone
      obtain ⟨v, hv, hiff⟩ := hexact rows ⟨id, List.Perm.refl⟩ _
        (List.Perm.refl rows) (Nat.lt_succ_self _)
      rcases verifyChain_reports hmeta hcoll (Nat.lt_succ_self _)
        ⟨id, List.Perm.refl⟩ with ⟨r, -, hr, -⟩ | ⟨-, hrun⟩
      · exact hnone ⟨r, hr⟩
      · rw [hrun, Except.ok.injEq] at hv
        exact hwhole (hiff.mp (hv ▸ rfl))
    · obtain ⟨rows', ord, unv, hperm, hrun⟩ :=
        verifyChain_can_report hmeta hcoll (Nat.lt_succ_self rows.length) hr
      obtain ⟨v, hv, hiff⟩ := hexact rows' ord _ hperm
        (by rw [hperm.length_eq]; exact Nat.lt_succ_self _)
      rw [hrun, Except.ok.injEq] at hv
      exact hwhole (hiff.mp (hv ▸ hnil))
  · intro hdec rows' ord fuel hperm hfuel
    exact verdict_of_decided hmeta hcoll hdec hperm hfuel ord

theorem Suspect.mem {table : List RowRec} (h : Suspect table r) : r ∈ table := by
  cases h with
  | forked h => exact h.1
  | tampered _ h => exact h.1
  | orphan _ _ h => exact h.1

theorem whole_of_no_suspect {rows : List RowRec} (hcoll : CollisionFree (chainedRows rows))
    (hown : ((chainedRows rows).map links.own).Nodup)
    (hnone : ∀ r, ¬ Suspect (chainedRows rows) r) : Whole rows := by
  have hnd : Unforked (chainedRows rows) := by
    by_contra hfork
    obtain ⟨r, -, hr, -⟩ := verifyChain_forked ⟨id, List.Perm.refl⟩ 0 hfork
    exact hnone r (.forked hr)
  have hok : ∀ s, ¬ Tampered (chainedRows rows) s := fun s hs =>
    hnone s (.tampered hnd hs)
  have hcov : ∀ r ∈ chainedRows rows,
      r ∈ covered (chainedRows rows) ((chainedRows rows).length + 1) := by
    intro r hr
    by_contra hout
    refine hnone r (.orphan hnd hok ⟨hr, fun l hl hmem => hout ?_⟩)
    obtain ⟨s, hs, heq⟩ := mem_map.mp hmem
    have : s = r := inj_on_of_nodup_map hown (hl.2 s hs).1 hr heq
    exact (hl.prefix_covered hcoll hnd (Nat.lt_succ_self _)).subset (this ▸ hs)
  refine ⟨covered (chainedRows rows) ((chainedRows rows).length + 1), ?_,
    segment_covered.1, fun r hr => (segment_covered.2 r hr).2⟩
  exact (perm_ext_iff_of_nodup (segment_covered.nodup hcoll)
    (hown.of_map _)).mpr fun r => ⟨fun hr => (segment_covered.2 r hr).1, hcov r⟩

theorem decided_of_distinct {rows : List RowRec} (hcoll : CollisionFree (chainedRows rows))
    (hown : ((chainedRows rows).map links.own).Nodup)
    (hid : ∀ r ∈ chainedRows rows, r.ev.id ≠ UUID.nil) : Decided rows := by
  by_cases hwhole : Whole rows
  · exact .inl hwhole
  refine .inr ⟨?_, fun r hr => hid r hr.mem⟩
  by_contra hnone
  exact hwhole (whole_of_no_suspect hcoll hown fun r hr => hnone ⟨r, hr⟩)

def sampleEvent (n : UInt8) : AuditEvent where
  id := Vector.replicate 16 n
  tenantID := Vector.replicate 16 1
  actorID := "alice"
  actorType := "user"
  actorIP := "10.0.0.1"
  action := "push"
  resource := "acme/app"
  outcome := "success"
  metadata := none
  occurredAt := 0

def sealedRow (prev : Bytes) (e : AuditEvent) : RowRec :=
  ⟨e, prev, (computeRowHash prev e).getD []⟩

def copyHash (r : RowRec) : RowRec :=
  { ev := sampleEvent 3, prevHash := [0x01], rowHash := r.rowHash }

def copiedHashTable : List RowRec :=
  [ sealedRow genesisPrevHash (sampleEvent 2)
  , copyHash (sealedRow genesisPrevHash (sampleEvent 2)) ]

theorem copiedHashTable_metadata : ∀ r ∈ chainedRows copiedHashTable, ValidMetadata r.ev := by
  decide +kernel

theorem copiedHashTable_collisionFree : CollisionFree (chainedRows copiedHashTable) := by
  decide +kernel

theorem copiedHashTable_not_whole : ¬ Whole copiedHashTable := by
  refine Links.not_arranged_of_missing (r := copyHash (sealedRow genesisPrevHash (sampleEvent 2)))
    (mem_chainedRows.mpr ⟨by simp [copiedHashTable], by decide⟩) (by decide) ?_
  have hlen : (sealedRow genesisPrevHash (sampleEvent 2)).rowHash.length = 32 := by
    decide +kernel
  intro s hs heq
  have hs' : s.rowHash = (sealedRow genesisPrevHash (sampleEvent 2)).rowHash := by
    rcases mem_pair.mp (mem_chainedRows.mp hs).1 with rfl | rfl <;> rfl
  rw [links_own, hs'] at heq
  rw [heq] at hlen
  exact absurd hlen (by decide)

theorem verifyChain_misses_copied_hash :
    (∀ r ∈ chainedRows copiedHashTable, ValidMetadata r.ev) ∧
    CollisionFree (chainedRows copiedHashTable) ∧
    verifyChain ⟨id, List.Perm.refl⟩ 3 copiedHashTable = .ok (clean 0) ∧
    (clean 0).Intact ∧ ¬ Whole copiedHashTable :=
  ⟨copiedHashTable_metadata, copiedHashTable_collisionFree, by decide +kernel, rfl,
    copiedHashTable_not_whole⟩

theorem verifyChain_exact_iff_copied :
    (∀ rows' ord fuel, rows'.Perm copiedHashTable → rows'.length < fuel →
      ∃ v, verifyChain ord fuel rows' = .ok v ∧ (v.Intact ↔ Whole copiedHashTable)) ↔
    Decided copiedHashTable :=
  verifyChain_exact_iff copiedHashTable copiedHashTable_metadata copiedHashTable_collisionFree

end OciJanus.Audit.Exactness
