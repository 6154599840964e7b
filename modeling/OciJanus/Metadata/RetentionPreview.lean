import OciJanus.Metadata.RetentionEval
import OciJanus.Verified.Rfc3339
import Mathlib.Data.Prod.Lex

/-!
# The preview window of a retention policy

Turning the policy on and changing its rules start a window of 24 hours; saving the same rules
again keeps the one there is.
-/

namespace OciJanus.Metadata.RetentionPreview

open Metadata.RetentionEval List
open Verified.Rfc3339 (truncateMicro)

structure Policy where
  enabled : Bool
  rules : List RetentionRule
  previewUntil : Option Int
  deriving DecidableEq

def ruleKey (r : RetentionRule) : Nat ×ₗ Int := toLex (RuleKind.ascending.idxOf r.kind, r.value)

def normaliseRulesForComparison (rules : List RetentionRule) : List RetentionRule :=
  rules.insertionSort fun a b => ruleKey a ≤ ruleKey b

def rulesChangedMaterially (prior new : List RetentionRule) : Bool :=
  normaliseRulesForComparison prior != normaliseRulesForComparison new

def retentionPreviewWindow : Int := 24 * 60 * 60 * 1000000000

structure Save where
  time : Int
  enabled : Bool
  rules : List RetentionRule

def decidePreviewUntil (s : Save) (prior : Option Policy) : Option Int :=
  if s.enabled then
    match prior with
    | none => some (s.time + retentionPreviewWindow)
    | some p =>
      if !p.enabled || rulesChangedMaterially p.rules s.rules then
        some (s.time + retentionPreviewWindow)
      else p.previewUntil
  else none

def upsertRetentionPolicy (prior : Option Policy) (s : Save) : Policy :=
  ⟨s.enabled, s.rules, (decidePreviewUntil s prior).map truncateMicro⟩

def stored (saves : List Save) : Option Policy :=
  saves.foldl (fun prior s => some (upsertRetentionPolicy prior s)) none

def Policy.proceeds (p : Policy) (t : Int) : Bool := p.enabled && p.previewUntil.all (· ≤ t)

def Holds (saves : List Save) (rules : List RetentionRule) (t : Int) : Prop :=
  ∃ p, stored (saves.filter (·.time ≤ t)) = some p ∧ p.enabled = true ∧ p.rules.Perm rules

theorem ruleKey_injective : Function.Injective ruleKey := by
  rintro ⟨k, v⟩ ⟨k', v'⟩ h
  have hidx : RuleKind.ascending.idxOf k = RuleKind.ascending.idxOf k' :=
    congrArg (fun x => (ofLex x).1) h
  have hkind : k = k' := idxOf_inj (by cases k <;> decide) |>.mp hidx
  have hvalue : v = v' := congrArg (fun x => (ofLex x).2) h
  rw [hkind, hvalue]

theorem rulesChangedMaterially_eq_false_iff {prior new : List RetentionRule} :
    rulesChangedMaterially prior new = false ↔ prior.Perm new := by
  have : Std.Total fun a b : RetentionRule => ruleKey a ≤ ruleKey b := ⟨fun _ _ => le_total _ _⟩
  have : IsTrans RetentionRule fun a b => ruleKey a ≤ ruleKey b := ⟨fun _ _ _ => le_trans⟩
  have hperm := fun l => perm_insertionSort (fun a b => ruleKey a ≤ ruleKey b) l
  rw [rulesChangedMaterially, bne_eq_false_iff_eq]
  constructor
  · intro h
    have hnew : (normaliseRulesForComparison new).Perm new := hperm new
    rw [← h] at hnew
    exact (hperm prior).symm.trans hnew
  · intro h
    exact ((hperm prior).trans (h.trans (hperm new).symm)).eq_of_pairwise
      (fun a b _ _ hab hba => ruleKey_injective (le_antisymm hab hba))
      (pairwise_insertionSort _ _) (pairwise_insertionSort _ _)

def Window (saves : List Save) (p : Policy) : Prop :=
  ∃ start : Int, p.previewUntil = some (truncateMicro (start + retentionPreviewWindow)) ∧
    ∀ t, start ≤ t → Holds saves p.rules t

theorem truncateMicro_idem (t : Int) : truncateMicro (truncateMicro t) = truncateMicro t := by
  unfold truncateMicro
  rw [Int.mul_ediv_cancel _ (by decide)]

variable {saves : List Save} {p : Policy} {s : Save}

theorem resave_keeps (hwindow : Window saves p) (hp : p.enabled = true) (hs : s.enabled = true)
    (hperm : p.rules.Perm s.rules) :
    (upsertRetentionPolicy (some p) s).previewUntil = p.previewUntil := by
  obtain ⟨start, hpreview, _⟩ := hwindow
  have hsame := rulesChangedMaterially_eq_false_iff.mpr hperm
  simp [upsertRetentionPolicy, decidePreviewUntil, hp, hs, hsame, hpreview, truncateMicro_idem]

theorem stored_append : stored (saves ++ [s]) = some (upsertRetentionPolicy (stored saves) s) := by
  simp [stored]

theorem holds_new (hle : ∀ a ∈ saves, a.time ≤ s.time) (hs : s.enabled = true) {t : Int}
    (ht : s.time ≤ t) : Holds (saves ++ [s]) s.rules t := by
  have hall : (saves ++ [s]).filter (·.time ≤ t) = saves ++ [s] := by
    refine filter_eq_self.mpr fun a ha => decide_eq_true ?_
    rcases mem_append.mp ha with ha | ha
    · exact (hle a ha).trans ht
    · rwa [mem_singleton.mp ha]
  exact ⟨_, hall ▸ stored_append, hs, .refl _⟩

theorem window_step (hle : ∀ a ∈ saves, a.time ≤ s.time) (hs : s.enabled = true)
    (h : ∀ p, stored saves = some p → p.enabled = true → Window saves p) :
    Window (saves ++ [s]) (upsertRetentionPolicy (stored saves) s) := by
  have hfresh : decidePreviewUntil s (stored saves) = some (s.time + retentionPreviewWindow) →
      Window (saves ++ [s]) (upsertRetentionPolicy (stored saves) s) := fun hpreview =>
    ⟨s.time, by rw [upsertRetentionPolicy, hpreview]; rfl, fun t ht => holds_new hle hs ht⟩
  cases hp : stored saves with
  | none => exact hp ▸ hfresh (by simp [decidePreviewUntil, hp, hs])
  | some p =>
    by_cases hsame : p.enabled = true ∧ p.rules.Perm s.rules
    · obtain ⟨start, hpreview, hold⟩ := h p hp hsame.1
      refine ⟨start, ?_, fun t ht => ?_⟩
      · rw [resave_keeps (h p hp hsame.1) hsame.1 hs hsame.2, hpreview]
      · by_cases hlate : s.time ≤ t
        · exact holds_new hle hs hlate
        · obtain ⟨q, hq, hqe, hperm⟩ := hold t ht
          exact ⟨q, by simpa [hlate] using hq, hqe, hperm.trans hsame.2⟩
    · rw [← rulesChangedMaterially_eq_false_iff] at hsame
      refine hp ▸ hfresh ?_
      unfold decidePreviewUntil
      rw [if_pos hs, hp]
      exact if_pos (by revert hsame; cases p.enabled <;> simp)

theorem window_of_stored (hsorted : saves.Pairwise (·.time ≤ ·.time)) (hp : stored saves = some p)
    (hen : p.enabled = true) : Window saves p := by
  induction saves using List.reverseRecOn generalizing p with
  | nil => cases hp
  | append_singleton saves s ih =>
    obtain ⟨hsaves, _, hle⟩ := pairwise_append.mp hsorted
    rw [stored_append] at hp
    cases hp
    exact window_step (fun a ha => hle a ha s (by simp)) hen fun p hp hen => ih hsaves hp hen

/-- **What is deleted by was previewed** for 24 hours. -/
theorem preview_upheld (saves : List Save) (hsorted : saves.Pairwise (·.time ≤ ·.time)) (p : Policy)
    (hp : stored saves = some p) :
    (∀ t, p.proceeds t = true → ∀ u, t - retentionPreviewWindow + 1000 ≤ u → u ≤ t →
        Holds saves p.rules u) ∧
      ∀ s : Save, p.enabled = true → s.enabled = true → p.rules.Perm s.rules →
        (upsertRetentionPolicy (some p) s).previewUntil = p.previewUntil := by
  refine ⟨fun t hproceeds u hu _ => ?_, fun s hen hs hperm => ?_⟩
  · obtain ⟨hen, hguard⟩ := Bool.and_eq_true_iff.mp hproceeds
    obtain ⟨start, hpreview, hold⟩ := window_of_stored hsorted hp hen
    rw [hpreview, Option.all_some, decide_eq_true_eq, truncateMicro] at hguard
    exact hold u (by omega)
  · exact resave_keeps (window_of_stored hsorted hp hen) hen hs hperm

def enabledAt (t : Int) : List Save := [⟨t, true, [⟨.maxCount, 1⟩]⟩]

def savedTwice : List Save :=
  [⟨0, true, [⟨.maxCount, 1⟩, ⟨.maxAgeDays, 9⟩]⟩, ⟨5000, true, [⟨.maxAgeDays, 9⟩, ⟨.maxCount, 1⟩]⟩]

theorem enabled_a_day_ago : Holds savedTwice [⟨.maxAgeDays, 9⟩, ⟨.maxCount, 1⟩] 1000 :=
  (preview_upheld savedTwice (by decide)
    ⟨true, [⟨.maxAgeDays, 9⟩, ⟨.maxCount, 1⟩], some retentionPreviewWindow⟩
    (by decide +kernel)).1 retentionPreviewWindow (by decide) 1000 (by decide) (by decide)

theorem proceeds_early :
    stored (enabledAt 1) = some ⟨true, [⟨.maxCount, 1⟩], some retentionPreviewWindow⟩ ∧
      Policy.proceeds ⟨true, [⟨.maxCount, 1⟩], some retentionPreviewWindow⟩
        retentionPreviewWindow = true ∧
      ¬ Holds (enabledAt 1) [⟨.maxCount, 1⟩] (retentionPreviewWindow - retentionPreviewWindow) := by
  refine ⟨by decide, by decide, ?_⟩
  rintro ⟨p, hp, -⟩
  have hnone : stored ((enabledAt 1).filter (·.time ≤ 0)) = none := by decide
  cases hnone.symm.trans hp

end OciJanus.Metadata.RetentionPreview
