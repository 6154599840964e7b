import Mathlib.Data.List.ReduceOption
import OciJanus.Metadata.RetentionEval
import OciJanus.Verified.Rfc3339

/-!
# Retention: what the rules select

The sum for `max_size_bytes` stops growing at the cap and is kept in 64 bits.
-/

namespace OciJanus.Metadata.RetentionRules

open Core.TagList (Collation byText)
open Metadata.RetentionEval Verified.KeyedTable Verified.MachineInt List
open Verified.Rfc3339 (truncateMicro)

def retentionMaxValue : RuleKind → Int
  | .maxAgeDays | .maxIdleDays => 36500
  | .maxCount => 10000000
  | .maxSizeBytes => 100 * 1024 * 1024 * 1024 * 1024
  | .danglingGraceDays => 365

def validateRules (seen : List RuleKind) : List RetentionRule → Except String Unit
  | [] => .ok ()
  | r :: rules =>
    if r.kind ∈ seen then .error "duplicate retention rule kind"
    else if r.value ≤ 0 then .error "retention rule value must be > 0"
    else if retentionMaxValue r.kind < r.value then
      .error "retention rule value exceeds maximum for kind"
    else validateRules (r.kind :: seen) rules

def validateRetentionRules (enabled : Bool) (rules : List RetentionRule) : Except String Unit :=
  if enabled ∧ rules = [] then .error "rules must be non-empty when enabled=true"
  else validateRules [] rules

section
variable (now : Int) (rules : List RetentionRule) (patterns : List Pattern)
  (manifests : List EvalManifest)

def Chosen (i : Nat) (m : EvalManifest) (r : RetentionRule) : Prop :=
  match r.kind with
  | .maxAgeDays => m.createdAt < now - r.value * day
  | .maxCount => r.value ≤ (i : Int)
  | .maxSizeBytes => r.value ≤ exactSum ((manifests.take i).map (·.sizeBytes))
  | .danglingGraceDays => m.tags = [] ∧ m.createdAt < now - r.value * day
  | .maxIdleDays =>
    m.createdAt < now - r.value * day ∧ ∀ pulled ∈ m.lastPulledAt, pulled < now - r.value * day

instance (i : Nat) (m : EvalManifest) (r : RetentionRule) :
    Decidable (Chosen now manifests i m r) := by
  unfold Chosen
  split <;> infer_instance

def reasonsFor (i : Nat) (m : EvalManifest) : List RuleKind :=
  RuleKind.ascending.filter fun k => ∃ r ∈ rules, r.kind = k ∧ Chosen now manifests i m r

def Unprotected (m : EvalManifest) : Prop :=
  ∀ tag ∈ m.tags, ∀ p ∈ patterns, p.matchString tag = false
  deriving Decidable

def candidate (m : EvalManifest) (reasons : List RuleKind) : Option EvaluationCandidate :=
  if Unprotected patterns m ∧ reasons ≠ [] then
    some ⟨m.manifestID, m.digest, m.tags, m.createdAt, m.sizeBytes, reasons⟩
  else none

def candidates (reasons : Nat → EvalManifest → List RuleKind) : List EvaluationCandidate :=
  (manifests.mapIdx fun i m => candidate patterns m (reasons i m)).reduceOption

def entries : List EvaluationCandidate :=
  candidates patterns manifests (reasonsFor now rules manifests)

structure Meets (maxDelete : Nat) (r : EvaluationResult) : Prop where
  wouldDelete : ∃ full : List EvaluationCandidate,
    full.Perm (entries now rules patterns manifests) ∧ full.Pairwise OldestFirst ∧
    r.wouldDelete = full.take maxDelete ∧ (r.truncated = true ↔ maxDelete < full.length)
  totalCount : r.totalCount = (entries now rules patterns manifests).length
  totalBytes : r.totalBytes = exactSum ((entries now rules patterns manifests).map (·.sizeBytes))
  protectedSkipped : ∀ d ∈ r.protectedSkipped, ∃ tag ∈ d.tags, ∃ p ∈ patterns,
    p.matchString tag = true

/-- The sum kept by `buildMaxSizeSet` wraps in 64 bits, and once at the cap it stays there. -/
def Reaches (cap : Int) (i : Nat) : Prop :=
  ∃ j ≤ i, cap ≤ int64 (exactSum ((manifests.take j).map (·.sizeBytes)))
  deriving Decidable

/-- At the place of every unprotected manifest the kept sum is at the cap exactly when the sizes
before it are, and the sizes of the selected manifests sum up within 64 bits. -/
structure SoundSizes : Prop where
  caps : ∀ r ∈ rules, r.kind = .maxSizeBytes → ∀ (i : Nat) (hi : i < manifests.length),
    Unprotected patterns manifests[i] →
      (Reaches manifests r.value i ↔
        r.value ≤ exactSum ((manifests.take i).map (·.sizeBytes)))
  fits : Fits (exactSum ((entries now rules patterns manifests).map (·.sizeBytes)))

end

variable {now : Int} {rules : List RetentionRule} {patterns : List Pattern}
  {manifests : List EvalManifest}

structure Validated (rules : List RetentionRule) : Prop where
  nodup : (rules.map (·.kind)).Nodup
  positive : ∀ r ∈ rules, 0 < r.value

theorem validated_of_validateRules {seen : List RuleKind} (h : validateRules seen rules = .ok ()) :
    Validated rules ∧ ∀ r ∈ rules, r.kind ∉ seen := by
  induction rules generalizing seen with
  | nil => exact ⟨⟨.nil, by simp⟩, by simp⟩
  | cons r rules ih =>
    unfold validateRules at h
    split_ifs at h with hseen hpos
    obtain ⟨hrest, hnew⟩ := ih h
    refine ⟨⟨?_, ?_⟩, ?_⟩
    · refine nodup_cons.mpr ⟨fun hmem => ?_, hrest.nodup⟩
      obtain ⟨r', hr', heq⟩ := mem_map.mp hmem
      exact hnew r' hr' (by simp [heq])
    · exact forall_mem_cons.mpr ⟨by omega, hrest.positive⟩
    · exact forall_mem_cons.mpr
        ⟨hseen, fun r' hr' => fun hmem => hnew r' hr' (mem_cons_of_mem _ hmem)⟩

theorem validated_of_ok {enabled : Bool} (h : validateRetentionRules enabled rules = .ok ()) :
    Validated rules := by
  unfold validateRetentionRules at h
  split_ifs at h
  exact (validated_of_validateRules h).1

theorem ruleFor_eq_some_iff (h : Validated rules) {k : RuleKind} {v : Int} :
    ruleFor rules k = some v ↔ ⟨k, v⟩ ∈ rules := by
  unfold ruleFor
  rw [Option.map_eq_some_iff]
  constructor
  · rintro ⟨r, hr, rfl⟩
    have hmem := mem_filter.mp (mem_of_mem_getLast? hr)
    obtain rfl : r.kind = k := by simpa using hmem.2
    exact hmem.1
  · intro hmem
    cases hlast : (rules.filter fun r => r.kind = k).getLast? with
    | none =>
      rw [List.getLast?_eq_none_iff, filter_eq_nil_iff] at hlast
      exact absurd (hlast _ hmem) (by simp)
    | some r =>
      have hr := mem_filter.mp (mem_of_mem_getLast? hlast)
      have heq : r = ⟨k, v⟩ :=
        inj_on_of_nodup_map h.nodup hr.1 hmem (by simpa using hr.2)
      exact ⟨r, rfl, by rw [heq]⟩

theorem ruleFor_any (h : Validated rules) {k : RuleKind} {p : Int → Bool} :
    (ruleFor rules k).any p = true ↔ ∃ r ∈ rules, r.kind = k ∧ p r.value = true := by
  rw [Option.any_eq_true]
  constructor
  · rintro ⟨v, hv, hp⟩
    exact ⟨⟨k, v⟩, (ruleFor_eq_some_iff h).mp hv, rfl, hp⟩
  · rintro ⟨⟨_, v⟩, hr, rfl, hp⟩
    exact ⟨v, (ruleFor_eq_some_iff h).mpr hr, hp⟩

theorem overSize_getElem? (manifests : List EvalManifest) (cap v : Int) (i : Nat) :
    (overSize cap (int64 v) manifests)[i]? = manifests[i]?.map fun _ =>
      decide (∃ j ≤ i, cap ≤ int64 (v + exactSum ((manifests.take j).map (·.sizeBytes)))) := by
  induction manifests generalizing v i with
  | nil => simp [overSize]
  | cons m ms ih =>
    unfold overSize
    split_ifs with hcap
    · -- the sum is frozen: the place `0` witnesses every later one
      have hfrozen : ∀ (l : List EvalManifest) (i : Nat),
          ∃ j ≤ i, cap ≤ int64 (v + exactSum ((l.take j).map (·.sizeBytes))) :=
        fun l i => ⟨0, i.zero_le, by simpa using hcap⟩
      cases i with
      | zero => simp [hcap]
      | succ i =>
        rw [List.getElem?_cons_succ, List.getElem?_cons_succ, ih, decide_eq_true (hfrozen _ _),
          decide_eq_true (hfrozen _ _)]
    · rw [int64_add]
      cases i with
      | zero => simp [hcap]
      | succ i =>
        rw [List.getElem?_cons_succ, List.getElem?_cons_succ, ih]
        refine congrFun (congrArg _ (funext fun _ => decide_eq_decide.mpr ⟨?_, ?_⟩)) _
        · rintro ⟨j, hj, h⟩
          refine ⟨j + 1, by omega, ?_⟩
          rwa [take_succ_cons, map_cons, exactSum_cons, ← Int.add_assoc]
        · rintro ⟨_ | j, hj, h⟩
          · exact absurd (by simpa using h) hcap
          · refine ⟨j, by omega, ?_⟩
            rwa [take_succ_cons, map_cons, exactSum_cons, ← Int.add_assoc] at h

abbrev Selected (now : Int) (rules : List RetentionRule) (manifests : List EvalManifest) (i : Nat)
    (m : EvalManifest) (k : RuleKind) : Prop :=
  ∃ r ∈ rules, r.kind = k ∧ Chosen now manifests i m r

abbrev OverCap (rules : List RetentionRule) (manifests : List EvalManifest) (i : Nat) : Prop :=
  ∃ r ∈ rules, r.kind = .maxSizeBytes ∧ Reaches manifests r.value i

theorem buildMaxSizeSet_getElem? (h : Validated rules) (i : Nat) :
    (buildMaxSizeSet manifests (ruleFor rules .maxSizeBytes))[i]? = manifests[i]?.map fun _ =>
      decide (OverCap rules manifests i) := by
  have hover : OverCap rules manifests i ↔
      ∃ cap, ruleFor rules .maxSizeBytes = some cap ∧ Reaches manifests cap i := by
    constructor
    · rintro ⟨⟨_, cap⟩, hr, rfl, hcap⟩
      exact ⟨cap, (ruleFor_eq_some_iff h).mpr hr, hcap⟩
    · rintro ⟨cap, hr, hcap⟩
      exact ⟨⟨_, cap⟩, (ruleFor_eq_some_iff h).mp hr, rfl, hcap⟩
  simp only [hover]
  unfold buildMaxSizeSet
  cases hrule : ruleFor rules .maxSizeBytes with
  | none => simp only [reduceCtorEq, false_and, exists_false, decide_false, List.getElem?_map]
  | some cap =>
    have hpos := h.positive _ ((ruleFor_eq_some_iff h).mp hrule)
    have hkept := overSize_getElem? manifests cap 0 i
    simpa [Int.not_le.mpr hpos, Reaches, int64_eq_self (v := 0) (by decide)] using hkept

theorem selects_maxSizeBytes (h : Validated rules) {i : Nat} {m : EvalManifest} :
    selects now rules i m (decide (OverCap rules manifests i)) .maxSizeBytes = true ↔
      OverCap rules manifests i := by
  rw [selects, Bool.and_eq_true, decide_eq_true_iff, and_iff_right_of_imp]
  rintro ⟨⟨_, cap⟩, hr, rfl, _⟩
  rw [(ruleFor_eq_some_iff h).mpr hr]
  rfl

theorem selects_of_ne (h : Validated rules) {i : Nat} {m : EvalManifest} {overCap : Bool}
    {k : RuleKind} (hk : k ≠ .maxSizeBytes) :
    selects now rules i m overCap k = true ↔ Selected now rules manifests i m k := by
  cases k with
  | maxSizeBytes => exact absurd rfl hk
  | _ =>
    rw [selects, ruleFor_any h]
    refine exists_congr fun r => and_congr_right fun _ => and_congr_right fun hk => ?_
    simp only [Chosen, hk]
    cases m.lastPulledAt <;> simp

def reasonsAt (now : Int) (rules : List RetentionRule) (manifests : List EvalManifest) (i : Nat)
    (m : EvalManifest) : List RuleKind :=
  RuleKind.ascending.filter (selects now rules i m (decide (OverCap rules manifests i)))

/-- The evaluator's reasons are the specified ones exactly when the size cap is read alike. -/
theorem reasonsAt_eq_iff (h : Validated rules) {i : Nat} {m : EvalManifest} :
    reasonsAt now rules manifests i m = reasonsFor now rules manifests i m ↔
      (OverCap rules manifests i ↔ Selected now rules manifests i m .maxSizeBytes) := by
  unfold reasonsAt reasonsFor
  constructor
  · intro heq
    have hmem := congrArg (RuleKind.maxSizeBytes ∈ ·) heq
    simpa [selects_maxSizeBytes h, show RuleKind.maxSizeBytes ∈ RuleKind.ascending by decide]
      using hmem
  · intro hcap
    refine filter_congr fun k _ => Bool.eq_iff_iff.mpr ?_
    rw [decide_eq_true_iff]
    by_cases hk : k = .maxSizeBytes
    · subst hk
      exact (selects_maxSizeBytes h).trans hcap
    · exact selects_of_ne h hk

theorem classes_candidates (now : Int) (patterns : List Pattern) (h : Validated rules) :
    (classes now rules patterns manifests).filterMap Class.candidate? =
      candidates patterns manifests (reasonsAt now rules manifests) := by
  have hmap : (classes now rules patterns manifests).map Class.candidate? =
      manifests.mapIdx fun i m => candidate patterns m (reasonsAt now rules manifests i m) := by
    refine ext_getElem? fun i => ?_
    unfold classes
    rw [List.getElem?_map, List.getElem?_mapIdx, List.getElem?_mapIdx, List.zip,
      List.getElem?_zipWith, buildMaxSizeSet_getElem? h]
    cases manifests[i]? with
    | none => rfl
    | some m =>
      simp only [Option.map_some, classify, candidate, reasonsAt, Unprotected,
        ← matchesProtected_eq_none_iff]
      cases matchesProtected m.tags patterns with
      | some _ => simp [Class.candidate?]
      | none =>
        simp only [true_and, ne_eq, ite_not]
        split_ifs <;> rfl
  rw [candidates, ← hmap]
  exact (filterMap_map (f := Class.candidate?) (g := id)).symm

variable {f g : Nat → EvalManifest → List RuleKind} {d : EvaluationCandidate}

theorem mem_candidates : d ∈ candidates patterns manifests f ↔
    ∃ (i : Nat) (hi : i < manifests.length),
      candidate patterns manifests[i] (f i manifests[i]) = some d := by
  rw [candidates, reduceOption_mem_iff, mem_mapIdx]

theorem candidate_manifestID {m : EvalManifest} {reasons : List RuleKind}
    (h : candidate patterns m reasons = some d) : d.manifestID = m.manifestID := by
  unfold candidate at h
  split_ifs at h
  cases h
  rfl

theorem candidate_inj {m : EvalManifest} (hm : Unprotected patterns m)
    {reasons reasons' : List RuleKind}
    (h : candidate patterns m reasons = candidate patterns m reasons') : reasons = reasons' := by
  unfold candidate at h
  by_cases hr : reasons = [] <;> by_cases hr' : reasons' = [] <;> simp_all

theorem candidate_of_perm (hids : (manifests.map (·.manifestID)).Nodup)
    (h : (candidates patterns manifests f).Perm (candidates patterns manifests g))
    {i : Nat} (hi : i < manifests.length)
    (hd : candidate patterns manifests[i] (f i manifests[i]) = some d) :
    candidate patterns manifests[i] (g i manifests[i]) = some d := by
  obtain ⟨j, hj, hd'⟩ := mem_candidates.mp (h.mem_iff.mp (mem_candidates.mpr ⟨i, hi, hd⟩))
  have hid : manifests[i].manifestID = manifests[j].manifestID :=
    (candidate_manifestID hd).symm.trans (candidate_manifestID hd')
  have heq := inj_on_of_nodup_map hids (getElem_mem hi) (getElem_mem hj) hid
  obtain rfl : i = j := (hids.of_map _).getElem_inj_iff.mp heq
  exact hd'

/-- Manifests of different identity are told apart in the answer, so an answer with the right
entries has the right entry at every place. -/
theorem candidate_eq_of_perm (hids : (manifests.map (·.manifestID)).Nodup)
    (h : (candidates patterns manifests f).Perm (candidates patterns manifests g))
    {i : Nat} (hi : i < manifests.length) :
    candidate patterns manifests[i] (f i manifests[i]) =
      candidate patterns manifests[i] (g i manifests[i]) :=
  Option.ext fun _ => ⟨candidate_of_perm hids h hi, candidate_of_perm hids h.symm hi⟩

theorem OldestFirst.total (a b : EvaluationCandidate) : OldestFirst a b ∨ OldestFirst b a := by
  unfold OldestFirst
  rcases lt_trichotomy a.pushedAt b.pushedAt with h | h | h
  · exact Or.inl (Or.inl h)
  · exact (le_total a.manifestDigest b.manifestDigest).imp (Or.inr ⟨h, ·⟩) (Or.inr ⟨h.symm, ·⟩)
  · exact Or.inr (Or.inl h)

theorem OldestFirst.trans {a b d : EvaluationCandidate} (h : OldestFirst a b)
    (h' : OldestFirst b d) : OldestFirst a d := by
  unfold OldestFirst at *
  rcases h with h | ⟨h, hle⟩ <;> rcases h' with h' | ⟨h', hle'⟩
  · exact Or.inl (h.trans h')
  · exact Or.inl (h.trans_eq h')
  · exact Or.inl (h.trans_lt h')
  · exact Or.inr ⟨h.trans h', hle.trans hle'⟩

theorem pairwise_insertionSort (l : List EvaluationCandidate) :
    (l.insertionSort OldestFirst).Pairwise OldestFirst :=
  haveI : Std.Total OldestFirst := ⟨OldestFirst.total⟩
  haveI : IsTrans EvaluationCandidate OldestFirst := ⟨fun _ _ _ => OldestFirst.trans⟩
  List.pairwise_insertionSort OldestFirst l

theorem evaluate_congr {rules' : List RetentionRule}
    (h : ∀ k, ruleFor rules' k = ruleFor rules k) (maxDelete maxProtected : Int) :
    evaluate now rules' patterns manifests maxDelete maxProtected =
      evaluate now rules patterns manifests maxDelete maxProtected := by
  have hselects : selects now rules' = selects now rules := by
    funext i m overCap k
    cases k <;> simp only [selects, h]
  have hclassify : classify now rules' = classify now rules := by
    unfold classify
    rw [hselects]
  unfold evaluate classes
  rw [h, hclassify]

theorem classify_protected {i : Nat} {m : EvalManifest} {overCap : Bool} {d : EvaluationProtected}
    (h : (classify now rules patterns i m overCap).protected? = some d) :
    ∃ tag ∈ d.tags, ∃ p ∈ patterns, p.matchString tag = true := by
  unfold classify at h
  cases hp : matchesProtected m.tags patterns with
  | some pattern =>
    rw [hp] at h
    cases h
    have hsome : ¬ matchesProtected m.tags patterns = none := by simp [hp]
    simpa [matchesProtected_eq_none_iff] using hsome
  | none =>
    simp only [hp] at h
    split_ifs at h <;> cases h

theorem overCap_iff_selected (h : Validated rules) {i : Nat} {m : EvalManifest} :
    (OverCap rules manifests i ↔ Selected now rules manifests i m .maxSizeBytes) ↔
      ∀ r ∈ rules, r.kind = .maxSizeBytes →
        (Reaches manifests r.value i ↔
          r.value ≤ exactSum ((manifests.take i).map (·.sizeBytes))) := by
  have hchosen : ∀ r : RetentionRule, r.kind = .maxSizeBytes → (Chosen now manifests i m r ↔
      r.value ≤ exactSum ((manifests.take i).map (·.sizeBytes))) := by
    intro r hk
    simp only [Chosen, hk]
  constructor
  · intro hiff r hr hk
    -- a validated policy has one rule of the kind
    have hone : ∀ r' ∈ rules, r'.kind = .maxSizeBytes → r' = r := fun r' hr' hk' =>
      inj_on_of_nodup_map h.nodup hr' hr (hk'.trans hk.symm)
    constructor
    · intro hreach
      obtain ⟨r', hr', hk', hsel⟩ := hiff.mp ⟨r, hr, hk, hreach⟩
      exact (hchosen r hk).mp (hone r' hr' hk' ▸ hsel)
    · intro hle
      obtain ⟨r', hr', hk', hreach⟩ := hiff.mpr ⟨r, hr, hk, (hchosen r hk).mpr hle⟩
      exact hone r' hr' hk' ▸ hreach
  · intro hall
    exact exists_congr fun r => and_congr_right fun hr => and_congr_right fun hk =>
      (hall r hr hk).trans (hchosen r hk).symm

theorem entries_of_caps (h : Validated rules) (hsizes : SoundSizes now rules patterns manifests) :
    (classes now rules patterns manifests).filterMap Class.candidate? =
      entries now rules patterns manifests := by
  rw [classes_candidates now patterns h, entries]
  refine congrArg reduceOption (ext_getElem (by simp) fun i hi _ => ?_)
  rw [List.length_mapIdx] at hi
  rw [List.getElem_mapIdx, List.getElem_mapIdx]
  by_cases hun : Unprotected patterns manifests[i]
  · rw [(reasonsAt_eq_iff h).mpr ((overCap_iff_selected h).mpr fun r hr hk =>
      hsizes.caps r hr hk i hi hun)]
  · simp [candidate, hun]

theorem caps_of_perm (h : Validated rules) (hids : (manifests.map (·.manifestID)).Nodup)
    (hperm : ((classes now rules patterns manifests).filterMap Class.candidate?).Perm
      (entries now rules patterns manifests)) {i : Nat} (hi : i < manifests.length)
    (hun : Unprotected patterns manifests[i]) :
    OverCap rules manifests i ↔
      Selected now rules manifests i manifests[i] .maxSizeBytes := by
  rw [classes_candidates now patterns h] at hperm
  exact (reasonsAt_eq_iff h).mp (candidate_inj hun (candidate_eq_of_perm hids hperm hi))

theorem accumulate_zero (xs : List Int) : accumulate 0 xs = int64 (exactSum xs) := by
  simpa [int64_eq_self (v := 0) (by decide)] using accumulate_eq 0 xs

/-- **The evaluator meets its specification** under every pair of limits exactly on sound sizes. -/
theorem evaluate_meets_iff (now : Int) (rules : List RetentionRule) (patterns : List Pattern)
    (manifests : List EvalManifest) (enabled : Bool)
    (hvalid : validateRetentionRules enabled rules = .ok ())
    (hids : (manifests.map (·.manifestID)).Nodup) :
    ((∀ maxDelete maxProtected : Int,
        Meets now rules patterns manifests (limitOr maxDelete defaultMaxDeleteResults)
          (evaluate now rules patterns manifests maxDelete maxProtected)) ↔
      SoundSizes now rules patterns manifests) ∧
    ∀ (maxDelete maxProtected : Int) (rules' : List RetentionRule), rules'.Perm rules →
      evaluate now rules' patterns manifests maxDelete maxProtected =
        evaluate now rules patterns manifests maxDelete maxProtected := by
  have h := validated_of_ok hvalid
  refine ⟨⟨fun hmeets => ?_, fun hsizes maxDelete maxProtected => ?_⟩, ?_⟩
  · -- a limit above the number of selected manifests shows them all
    have hall := hmeets (((classes now rules patterns manifests).filterMap
      Class.candidate?).length + 1) 0
    obtain ⟨full, hfull, _, htake, _⟩ := hall.wouldDelete
    have hperm : ((classes now rules patterns manifests).filterMap Class.candidate?).Perm
        (entries now rules patterns manifests) := by
      have hcount := hall.totalCount.trans hfull.length_eq.symm
      have hlimit : ∀ n : Nat, limitOr (n + 1) defaultMaxDeleteResults = n + 1 := fun n => by
        unfold limitOr
        split_ifs <;> omega
      simp only [evaluate, hlimit] at htake hcount
      rw [take_of_length_le (by simp), take_of_length_le (by omega)] at htake
      exact (perm_insertionSort OldestFirst _).symm.trans (htake ▸ hfull)
    refine ⟨fun r hr hk i hi hun => ?_, ?_⟩
    · exact (overCap_iff_selected h).mp (caps_of_perm h hids hperm hi hun) r hr hk
    · have hbytes := hall.totalBytes
      rw [evaluate, accumulate_zero, exactSum_perm (hperm.map _)] at hbytes
      exact hbytes ▸ fits_int64 _
  · have hdeleted := entries_of_caps h hsizes
    refine ⟨?_, by rw [evaluate, hdeleted], ?_, ?_⟩
    · refine ⟨_, ?_, pairwise_insertionSort _, rfl, decide_eq_true_iff⟩
      rw [hdeleted]
      exact perm_insertionSort OldestFirst _
    · rw [evaluate, hdeleted]
      exact (accumulate_zero _).trans (int64_eq_self hsizes.fits)
    · intro d hd
      obtain ⟨found, hfound, hclass⟩ := mem_filterMap.mp (mem_of_mem_take hd)
      unfold classes at hfound
      obtain ⟨i, hi, rfl⟩ := mem_mapIdx.mp hfound
      exact classify_protected hclass
  · intro maxDelete maxProtected rules' hperm
    have h' : Validated rules' :=
      ⟨(hperm.map _).nodup_iff.mpr h.nodup, fun r hr => h.positive r (hperm.mem_iff.mp hr)⟩
    refine evaluate_congr (fun k => Option.ext fun v => ?_) maxDelete maxProtected
    rw [ruleFor_eq_some_iff h', ruleFor_eq_some_iff h, hperm.mem_iff]

def sizedAt (createdAt size : Int) : EvalManifest :=
  ⟨createdAt.toNat, "sha256:a", size, createdAt, none, []⟩

theorem two_rules_meet :
    Meets 0 [⟨.maxCount, 1⟩, ⟨.maxSizeBytes, 10⟩] [] [sizedAt 3 10, sizedAt 2 5] 1000
      (evaluate 0 [⟨.maxCount, 1⟩, ⟨.maxSizeBytes, 10⟩] [] [sizedAt 3 10, sizedAt 2 5] 0 0) :=
  (evaluate_meets_iff 0 _ [] _ true (by decide) (by decide)).1.mpr ⟨by decide, by decide⟩ 0 0

theorem negative_size_ignored :
    validateRetentionRules true [⟨.maxSizeBytes, 10⟩] = .ok () ∧
      ¬ Meets 0 [⟨.maxSizeBytes, 10⟩] [] [sizedAt 3 10, sizedAt 2 (-5), sizedAt 1 1] 1000
        (evaluate 0 [⟨.maxSizeBytes, 10⟩] [] [sizedAt 3 10, sizedAt 2 (-5), sizedAt 1 1] 0 0) := by
  refine ⟨by decide, fun h => ?_⟩
  have hcount := h.totalCount
  revert hcount
  decide

structure Pull where
  manifestID : Nat
  tenantID : String
  pulledAt : Int

def upsertManifestLastPulledAt (m : Manifest) (p : Pull) : Manifest :=
  if m.id = p.manifestID ∧ m.tenantID = p.tenantID ∧
      m.lastPulledAt.all (· < truncateMicro p.pulledAt - day) then
    { m with lastPulledAt := some (truncateMicro p.pulledAt) }
  else m

/-- The times that the pulls store: those of its manifest that come more than a day after the time
stored before them. -/
def storedTimes (m : Manifest) : List Pull → List Int
  | [] => []
  | p :: pulls =>
    if m.id = p.manifestID ∧ m.tenantID = p.tenantID ∧
        m.lastPulledAt.all (· < truncateMicro p.pulledAt - day) then
      truncateMicro p.pulledAt :: storedTimes (upsertManifestLastPulledAt m p) pulls
    else storedTimes (upsertManifestLastPulledAt m p) pulls

theorem foldl_upsert_same (pulls : List Pull) (m : Manifest) : ∃ pulled,
    pulls.foldl upsertManifestLastPulledAt m = { m with lastPulledAt := pulled } := by
  induction pulls generalizing m with
  | nil => exact ⟨m.lastPulledAt, rfl⟩
  | cons p pulls ih =>
    obtain ⟨pulled, h⟩ := ih (upsertManifestLastPulledAt m p)
    refine ⟨pulled, ?_⟩
    rw [foldl_cons, h, upsertManifestLastPulledAt]
    split_ifs <;> rfl

theorem lastPulledAt_before_iff (cutoff : Int) (pulls : List Pull) (m : Manifest) :
    (pulls.foldl upsertManifestLastPulledAt m).lastPulledAt.all (· < cutoff) = true ↔
      m.lastPulledAt.all (· < cutoff) = true ∧ ∀ t ∈ storedTimes m pulls, t < cutoff := by
  have hday : 0 < day := by decide
  induction pulls generalizing m with
  | nil => simp [storedTimes]
  | cons p pulls ih =>
    refine (ih _).trans ?_
    rw [storedTimes, upsertManifestLastPulledAt]
    split_ifs with hstored
    · -- the new time is later than the one it replaces
      have holder : truncateMicro p.pulledAt < cutoff → m.lastPulledAt.all (· < cutoff) = true := by
        intro hlt
        cases hlast : m.lastPulledAt with
        | none => rfl
        | some v =>
          have hv : v < truncateMicro p.pulledAt - day := by simpa [hlast] using hstored.2.2
          simpa using (show v < truncateMicro p.pulledAt by omega).trans hlt
      rw [forall_mem_cons, Option.all_some, decide_eq_true_eq]
      exact ⟨fun h => ⟨holder h.1, h⟩, fun h => h.2⟩
    · rfl

theorem length_buildMaxSizeSet (manifests : List EvalManifest) (rule : Option Int) :
    (buildMaxSizeSet manifests rule).length = manifests.length := by
  have hover : ∀ cap running, (overSize cap running manifests).length = manifests.length := by
    intro cap running
    induction manifests generalizing running with
    | nil => rfl
    | cons m ms ih => rw [overSize]; split_ifs <;> simp [ih]
  unfold buildMaxSizeSet
  split
  · split_ifs
    · simp
    · exact hover _ _
  · simp

/-- A manifest that a rule selects at every position is listed, if the limit allows. -/
theorem mem_evaluate {m : EvalManifest} (hm : m ∈ manifests)
    (hfree : matchesProtected m.tags patterns = none) {k : RuleKind}
    (hk : ∀ i overCap, selects now rules i m overCap k = true) :
    ∃ maxDelete maxProtected, ∃ d ∈
      (evaluate now rules patterns manifests maxDelete maxProtected).wouldDelete,
        d.manifestDigest = m.digest ∧ k ∈ d.reasons := by
  have hmem : m ∈ (manifests.zip (buildMaxSizeSet manifests (ruleFor rules .maxSizeBytes))).map
      Prod.fst := by
    rwa [map_fst_zip (length_buildMaxSizeSet ..).ge]
  obtain ⟨⟨row, overCap⟩, hzip, hrow⟩ := mem_map.mp hmem
  obtain rfl : row = m := hrow
  obtain ⟨i, hi, hget⟩ := getElem_of_mem hzip
  have hreason : k ∈ RuleKind.ascending.filter (selects now rules i row overCap) :=
    mem_filter.mpr ⟨by cases k <;> decide, hk i overCap⟩
  have hclass : classify now rules patterns i row overCap =
      .wouldDelete ⟨row.manifestID, row.digest, row.tags, row.createdAt, row.sizeBytes,
        RuleKind.ascending.filter (selects now rules i row overCap)⟩ := by
    simp only [classify, hfree, if_neg (ne_nil_of_mem hreason)]
  have hfound : classify now rules patterns i row overCap ∈ classes now rules patterns manifests :=
    mem_mapIdx.mpr ⟨i, hi, by rw [hget]⟩
  refine ⟨(classes now rules patterns manifests).length + 1, 0, ⟨row.manifestID, row.digest,
    row.tags, row.createdAt, row.sizeBytes, _⟩, ?_, rfl, hreason⟩
  have hlimit : ¬ ((classes now rules patterns manifests).length : Int) + 1 ≤ 0 := by omega
  simp only [evaluate, limitOr, if_neg hlimit]
  rw [take_of_length_le, mem_insertionSort, mem_filterMap]
  · exact ⟨_, hfound, by rw [hclass]; rfl⟩
  · rw [length_insertionSort]
    exact (length_filterMap_le _ _).trans (by omega)

/-- **When a manifest is not idle**: when it is protected or young enough, or when a pull since then
was stored. -/
theorem pulled_not_idle_iff (c : Collation) (compile : String → Option (String → Bool))
    (s : Store) (now : Int) (candidate : Candidate) (patterns : List Pattern)
    (hpatterns : compileProtectedPatterns compile candidate.protectedTagPatterns = some patterns)
    (m : Manifest) (pulls : List Pull)
    (hrow : pulls.foldl upsertManifestLastPulledAt m ∈ s.manifests.rows)
    (n : Int) (hrule : ruleFor candidate.rules .maxIdleDays = some n) :
    (∀ maxDelete maxProtected result,
      evaluateRetention c compile s now m.tenantID m.repoID candidate maxDelete maxProtected =
        some result →
      ∀ d ∈ result.wouldDelete, d.manifestDigest = m.digest → .maxIdleDays ∉ d.reasons) ↔
      (∃ tag ∈ aggregatedTags c s m, ∃ p ∈ patterns, p.matchString tag = true) ∨
        now - n * day ≤ m.createdAt ∨
        ∃ t ∈ m.lastPulledAt.toList ++ storedTimes m pulls, now - n * day ≤ t := by
  obtain ⟨pulled, hsame⟩ := foldl_upsert_same pulls m
  have hbefore := lastPulledAt_before_iff (now - n * day) pulls m
  rw [hsame] at hrow hbefore
  have hidle : ∀ i overCap, selects now candidate.rules i
      (evalRow c s { m with lastPulledAt := pulled }) overCap .maxIdleDays = true ↔
        m.createdAt < now - n * day ∧
          ∀ t ∈ m.lastPulledAt.toList ++ storedTimes m pulls, t < now - n * day := by
    intro i overCap
    rw [selects, hrule, Option.any_some, decide_eq_true_eq, forall_mem_append]
    refine and_congr_right' (hbefore.trans (and_congr_left' ?_))
    cases m.lastPulledAt <;> simp
  constructor
  · intro hnever
    by_contra hcond
    simp only [not_or, not_exists, not_and, not_le, Bool.not_eq_true] at hcond
    obtain ⟨hfree, hyoung, hstored⟩ := hcond
    obtain ⟨maxDelete, maxProtected, d, hd, hdigest, hreason⟩ :=
      mem_evaluate (mem_loadManifestsForEval.mpr ⟨_, hrow, rfl, rfl, rfl⟩)
        (matchesProtected_eq_none_iff.mpr hfree)
        fun i overCap => (hidle i overCap).mpr ⟨hyoung, hstored⟩
    exact hnever maxDelete maxProtected _ (by simp [evaluateRetention, hpatterns]) d hd hdigest
      hreason
  · intro hcond maxDelete maxProtected result h d hd hdigest hreason
    obtain ⟨_, hload, _, hp, hmatch, hfree, i, overCap, hreasons⟩ :=
      evaluateRetention_wouldDelete h hd
    cases hpatterns.symm.trans hp
    obtain ⟨row, hmem, hrepo, htenant, rfl⟩ := mem_loadManifestsForEval.mp hload
    -- a repository has one row of the digest
    obtain rfl : row = { m with lastPulledAt := pulled } :=
      s.manifests.eq_of_key_eq hmem hrow (Prod.ext hrepo (hmatch.symm.trans hdigest))
    obtain ⟨hyoung, hstored⟩ := (hidle i overCap).mp (hreasons _ hreason)
    rcases hcond with ⟨tag, htag, p, hp, hmatches⟩ | hold | ⟨t, ht, hrecent⟩
    · exact absurd (matchesProtected_eq_none_iff.mp hfree tag htag p hp) (by simp [hmatches])
    · omega
    · exact absurd (hstored t ht) (by omega)

def hour : Int := 60 * 60 * 1000000000

def pushedAtZero : Manifest :=
  ⟨1, "r1", "t", "sha256:a", mediaTypeOCIManifest, [1], 1, 0, none, none⟩

def storePulled (times : List Int) : Store :=
  { Store.fresh ⟨[], nodup_nil⟩ twoRepositories with
    manifests := .single ((times.map (Pull.mk 1 "t")).foldl upsertManifestLastPulledAt pushedAtZero)
    manifests_repo := by
      intro m hm
      obtain ⟨_, h⟩ := foldl_upsert_same (times.map (Pull.mk 1 "t")) pushedAtZero
      rw [mem_singleton.mp hm, h]
      exact (by decide : twoRepositories.get "r1" ≠ none) }

def idleAfter (times : List Int) (now n : Int) : Option (List (List RuleKind)) :=
  (evaluateRetention byText (fun _ => none) (storePulled times) now "t" "r1"
    ⟨[⟨.maxIdleDays, n⟩], []⟩ 0 0).map fun r => r.wouldDelete.map (·.reasons)

theorem pulled_yesterday_not_idle :
    3 * day - 2 * day < 2 * day ∧ ∀ maxDelete maxProtected result,
      evaluateRetention byText (fun _ => none) (storePulled [2 * day]) (3 * day) "t" "r1"
        ⟨[⟨.maxIdleDays, 2⟩], []⟩ maxDelete maxProtected = some result →
      ∀ d ∈ result.wouldDelete, d.manifestDigest = "sha256:a" → .maxIdleDays ∉ d.reasons :=
  ⟨by decide, (pulled_not_idle_iff byText (fun _ => none) (storePulled [2 * day]) (3 * day)
    ⟨[⟨.maxIdleDays, 2⟩], []⟩ [] rfl pushedAtZero [⟨1, "t", 2 * day⟩] (by decide +kernel) 2 rfl).mpr
    (.inr (.inr ⟨2 * day, by decide +kernel, by decide⟩))⟩

theorem pulled_an_hour_ago_idle :
    (24 * hour + 1) - day < 23 * hour ∧
      idleAfter [0, 23 * hour] (24 * hour + 1) 1 = some [[.maxIdleDays]] := by
  decide +kernel

end OciJanus.Metadata.RetentionRules
