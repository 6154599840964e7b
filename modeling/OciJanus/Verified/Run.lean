import Mathlib.Data.List.Basic

/-!
# Runs of a step function

`Guarded` says that every action of a run met a condition on the state it was taken in;
`run_invariant` is the one induction every safety result below uses.
-/

namespace OciJanus.Verified.Run

variable {σ α : Type*} (step : σ → α → σ)

def run (s : σ) (acts : List α) : σ := acts.foldl step s

@[simp] theorem run_nil (s : σ) : run step s [] = s := rfl

@[simp] theorem run_cons (s : σ) (a : α) (acts : List α) :
    run step s (a :: acts) = run step (step s a) acts := rfl

theorem run_append (s : σ) (as bs : List α) :
    run step s (as ++ bs) = run step (run step s as) bs := by
  simp [run]

def Guarded (G : σ → α → Prop) : σ → List α → Prop
  | _, [] => True
  | s, a :: acts => G s a ∧ Guarded G (step s a) acts

variable {step}

instance decidableGuarded {G : σ → α → Prop} [∀ s a, Decidable (G s a)] :
    ∀ (s : σ) (acts : List α), Decidable (Guarded step G s acts)
  | _, [] => isTrue trivial
  | s, a :: acts => @instDecidableAnd _ _ _ (decidableGuarded (step s a) acts)

variable {G H : σ → α → Prop} {I : σ → Prop} {s : σ} {acts : List α}

theorem run_invariant (hstep : ∀ s a, I s → G s a → I (step s a))
    (hs : I s) (hG : Guarded step G s acts) : I (run step s acts) := by
  induction acts generalizing s with
  | nil => exact hs
  | cons a acts ih => exact ih (hstep s a hs hG.1) hG.2

theorem update_cases {ι β : Type*} [DecidableEq ι] {f : ι → β} {i j : ι} {a b : β}
    (h : Function.update f i a j = b) : (j = i ∧ a = b) ∨ (j ≠ i ∧ f j = b) := by
  by_cases hj : j = i
  · rw [hj, Function.update_self] at h
    exact Or.inl ⟨hj, h⟩
  · rw [Function.update_of_ne hj] at h
    exact Or.inr ⟨hj, h⟩

theorem guarded_append {as bs : List α} :
    Guarded step G s (as ++ bs) ↔ Guarded step G s as ∧ Guarded step G (run step s as) bs := by
  induction as generalizing s with
  | nil => simp [Guarded]
  | cons a as ih => simp [Guarded, ih, and_assoc]

theorem guarded_of_forall {P : α → Prop}
    (h : ∀ a ∈ acts, P a) : Guarded step (fun _ a => P a) s acts := by
  induction acts generalizing s with
  | nil => trivial
  | cons a acts ih =>
    exact ⟨h a (by simp), ih fun b hb => h b (by simp [hb])⟩

theorem Guarded.and (hG : Guarded step G s acts) (hH : Guarded step H s acts) :
    Guarded step (fun s a => G s a ∧ H s a) s acts := by
  induction acts generalizing s with
  | nil => trivial
  | cons a acts ih => exact ⟨⟨hG.1, hH.1⟩, ih hG.2 hH.2⟩

theorem guarded_of_invariant (hstep : ∀ s a, I s → G s a → I (step s a) ∧ H s a)
    (hs : I s) (hG : Guarded step G s acts) : Guarded step H s acts := by
  induction acts generalizing s with
  | nil => trivial
  | cons a acts ih =>
    obtain ⟨hs', hnow⟩ := hstep s a hs hG.1
    exact ⟨hnow, ih hs' hG.2⟩

theorem guarded_congr_of_invariant {K : σ → α → Prop}
    (hstep : ∀ s a, I s → G s a → (H s a ↔ K s a) ∧ (K s a → I (step s a)))
    (hs : I s) (hG : Guarded step G s acts) : Guarded step H s acts ↔ Guarded step K s acts := by
  induction acts generalizing s with
  | nil => exact Iff.rfl
  | cons a acts ih =>
    obtain ⟨hnow, hkeeps⟩ := hstep s a hs hG.1
    constructor
    · intro hH
      have hK : K s a := hnow.mp hH.1
      exact ⟨hK, (ih (hkeeps hK) hG.2).mp hH.2⟩
    · intro hK
      exact ⟨hnow.mpr hK.1, (ih (hkeeps hK.1) hG.2).mpr hK.2⟩

theorem invariant_along_iff {W : σ → Prop} (hwf : ∀ s a, W s → W (step s a))
    (hstep : ∀ s a, W s → I s → (I (step s a) ↔ G s a)) (hW : W s) (hs : I s) :
    (∀ soon rest, acts = soon ++ rest → I (run step s soon)) ↔ Guarded step G s acts := by
  induction acts generalizing s with
  | nil =>
    constructor
    · intro _
      trivial
    · intro _ soon rest hsplit
      obtain ⟨rfl, rfl⟩ := List.append_eq_nil_iff.mp hsplit.symm
      exact hs
  | cons a acts ih =>
    constructor
    · intro hall
      have hnext : I (step s a) := hall [a] acts rfl
      refine ⟨(hstep s a hW hs).mp hnext, (ih (hwf s a hW) hnext).mp ?_⟩
      intro soon rest hsplit
      exact hall (a :: soon) rest (by rw [hsplit]; rfl)
    · intro hG soon rest hsplit
      have hnext : I (step s a) := (hstep s a hW hs).mpr hG.1
      cases soon with
      | nil => exact hs
      | cons b soon =>
        rw [List.cons_append, List.cons.injEq] at hsplit
        rw [← hsplit.1]
        exact (ih (hwf s a hW) hnext).mpr hG.2 soon rest hsplit.2

theorem run_origin {P : σ → Prop} {Q : σ → α → Prop}
    (hstep : ∀ s a, G s a → P (step s a) → P s ∨ Q s a)
    (hG : Guarded step G s acts) (h : P (run step s acts)) :
    P s ∨ ∃ soon a rest, acts = soon ++ a :: rest ∧ Q (run step s soon) a := by
  induction acts generalizing s with
  | nil => exact Or.inl h
  | cons a acts ih =>
    rcases ih hG.2 h with hold | ⟨soon, a', rest, hacts, hQ⟩
    · rcases hstep s a hG.1 hold with hs | hnow
      · exact Or.inl hs
      · exact Or.inr ⟨[], a, acts, rfl, hnow⟩
    · exact Or.inr ⟨a :: soon, a', rest, by rw [hacts]; rfl, hQ⟩

theorem run_since_iff {W P : σ → Prop} {Q : σ → α → Prop} {R : α → Prop}
    (hwf : ∀ s a, W s → W (step s a)) (hstep : ∀ s a, W s → (P (step s a) ↔ Q s a ∨ (P s ∧ ¬ R a)))
    (hW : W s) :
    P (run step s acts) ↔ (P s ∧ ∀ a ∈ acts, ¬ R a) ∨
      ∃ soon a rest, acts = soon ++ a :: rest ∧ Q (run step s soon) a ∧ ∀ b ∈ rest, ¬ R b := by
  induction acts generalizing s with
  | nil => simp
  | cons a acts ih =>
    rw [run_cons, ih (hwf s a hW), hstep s a hW]
    constructor
    · rintro (⟨hQ | ⟨hP, hR⟩, hrest⟩ | ⟨soon, b, rest, rfl, hQ, hrest⟩)
      · exact Or.inr ⟨[], a, acts, rfl, hQ, hrest⟩
      · exact Or.inl ⟨hP, by simpa using ⟨hR, hrest⟩⟩
      · exact Or.inr ⟨a :: soon, b, rest, rfl, hQ, hrest⟩
    · rintro (⟨hP, hrest⟩ | ⟨soon, b, rest, hsplit, hQ, hrest⟩)
      · have hsplit := List.forall_mem_cons.mp hrest
        exact Or.inl ⟨Or.inr ⟨hP, hsplit.1⟩, hsplit.2⟩
      · cases soon with
        | nil =>
          rw [List.nil_append, List.cons.injEq] at hsplit
          obtain ⟨rfl, rfl⟩ := hsplit
          exact Or.inl ⟨Or.inl hQ, hrest⟩
        | cons c soon =>
          rw [List.cons_append, List.cons.injEq] at hsplit
          obtain ⟨rfl, rfl⟩ := hsplit
          exact Or.inr ⟨soon, b, rest, rfl, hQ, hrest⟩

end OciJanus.Verified.Run
