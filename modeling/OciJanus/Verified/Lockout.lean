import Mathlib.Data.List.Basic
import Mathlib.Algebra.Order.Ring.Int
import Mathlib.Data.List.Count

/-!
# Lockout counters

`Move` says what can happen to a counter; `WindowBounded`: no window as long as the lock holds
more logged failures than the limit.
-/

namespace OciJanus.Verified.Lockout

open List

structure Counter where
  fails : Nat
  lockedUntil : Option Int
  now : Int
  log : List Int

def WindowBounded (limit : Nat) (span : Int) (log : List Int) : Prop :=
  ∀ start, log.countP (fun t => start ≤ t ∧ t < start + span) ≤ limit

namespace Counter

def Open (s : Counter) : Prop := ∀ d, s.lockedUntil = some d → d ≤ s.now

def failed (limit : Nat) (span : Int) (s : Counter) (logged : Bool) : Counter where
  fails := s.fails + 1
  lockedUntil := if limit ≤ s.fails + 1 then some (s.now + span) else s.lockedUntil
  now := s.now
  log := if logged then s.log ++ [s.now] else s.log

def cleared (s : Counter) : Counter :=
  { s with
    fails := 0
    lockedUntil := none }

inductive Move (limit : Nat) (span : Int) (s : Counter) : Counter → Prop
  | wait {t : Int} (later : s.now ≤ t) : Move limit span s { s with now := t }
  | fail (logged : Bool) (unlocked : s.Open) : Move limit span s (s.failed limit span logged)
  | clear (unlocked : s.Open) (settled : s.fails = 0 ∨ limit ≤ s.fails) :
      Move limit span s s.cleared

theorem Move.refl (limit : Nat) (span : Int) (s : Counter) : Move limit span s s :=
  .wait (le_refl s.now)

structure Inv (limit : Nat) (span : Int) (s : Counter) : Prop where
  bounded : WindowBounded limit span s.log
  past : ∀ t ∈ s.log, t ≤ s.now
  split : ∃ old recent, s.log = old ++ recent ∧
    (∀ t ∈ old, t + span ≤ s.now ∨ ∃ d, s.lockedUntil = some d ∧ t + span ≤ d) ∧
    recent.length ≤ s.fails ∧ (limit ≤ s.fails → recent = [])

variable {limit : Nat} {span : Int} {s s' : Counter}

theorem Inv.of_nil (h : s.log = []) : Inv limit span s where
  bounded := by simp [h, WindowBounded]
  past := by simp [h]
  split := ⟨[], [], h, by simp, Nat.zero_le _, fun _ => rfl⟩

theorem Inv.split_open (h : Inv limit span s) (ho : s.Open) :
    ∃ old recent, s.log = old ++ recent ∧ (∀ t ∈ old, t + span ≤ s.now) ∧
      recent.length ≤ s.fails ∧ (limit ≤ s.fails → recent = []) := by
  obtain ⟨old, recent, hlog, hold, hlen, hfull⟩ := h.split
  refine ⟨old, recent, hlog, fun t ht => ?_, hlen, hfull⟩
  rcases hold t ht with hpast | ⟨d, hd, hle⟩
  · exact hpast
  · exact le_trans hle (ho d hd)

theorem windowBounded_snoc {old recent : List Int} {now : Int}
    (hb : WindowBounded limit span (old ++ recent)) (hold : ∀ t ∈ old, t + span ≤ now)
    (hlen : recent.length < limit) : WindowBounded limit span (old ++ recent ++ [now]) := by
  intro start
  rw [countP_append, countP_singleton]
  by_cases hin : start ≤ now ∧ now < start + span
  · have hnone : old.countP (fun t => start ≤ t ∧ t < start + span) = 0 := by
      rw [countP_eq_zero]
      intro t ht
      have := hold t ht
      simp only [decide_eq_true_eq]
      omega
    have hrecent := countP_le_length (p := fun t => decide (start ≤ t ∧ t < start + span))
      (l := recent)
    rw [countP_append, hnone]
    split_ifs <;> omega
  · have := hb start
    simp only [hin, decide_false, Bool.false_eq_true, if_false]
    omega

theorem Inv.wait {t : Int} (h : Inv limit span s) (hle : s.now ≤ t) :
    Inv limit span { s with now := t } := by
  obtain ⟨old, recent, hlog, hold, hlen, hfull⟩ := h.split
  refine ⟨h.bounded, fun t' ht' => le_trans (h.past t' ht') hle, old, recent, hlog, ?_, hlen, hfull⟩
  intro t' ht'
  rcases hold t' ht' with hpast | hlock
  · exact Or.inl (le_trans hpast hle)
  · exact Or.inr hlock

theorem Inv.clear (h : Inv limit span s) (ho : s.Open) (hs : s.fails = 0 ∨ limit ≤ s.fails) :
    Inv limit span s.cleared := by
  obtain ⟨old, recent, hlog, hold, hlen, hfull⟩ := h.split_open ho
  have hnil : recent = [] := by
    rcases hs with hzero | hge
    · exact length_eq_zero_iff.mp (by omega)
    · exact hfull hge
  exact ⟨h.bounded, h.past, old, recent, hlog, fun t ht => Or.inl (hold t ht), by simp [hnil],
    fun _ => hnil⟩

theorem Inv.fail (hlim : 0 < limit) (h : Inv limit span s) (ho : s.Open) (logged : Bool) :
    Inv limit span (s.failed limit span logged) := by
  obtain ⟨old, recent, hlog, hold, hlen, hfull⟩ := h.split_open ho
  -- the recent failures, with the new one if it is logged
  obtain ⟨recent', hrec, hlen', hb, hpast⟩ :
      ∃ recent', (s.failed limit span logged).log = old ++ recent' ∧
        recent'.length ≤ s.fails + 1 ∧ WindowBounded limit span (old ++ recent') ∧
        ∀ t ∈ old ++ recent', t ≤ s.now := by
    cases logged with
    | false => exact ⟨recent, hlog, by omega, hlog ▸ h.bounded, hlog ▸ h.past⟩
    | true =>
      refine ⟨recent ++ [s.now], ?_, by simp; omega, ?_, ?_⟩
      · show s.log ++ [s.now] = _
        rw [hlog, append_assoc]
      · rw [← append_assoc]
        refine windowBounded_snoc (hlog ▸ h.bounded) hold ?_
        by_cases hge : limit ≤ s.fails
        · rw [hfull hge]
          exact hlim
        · omega
      · intro t ht
        rw [← append_assoc, ← hlog] at ht
        rcases mem_append.mp ht with hlogged | hnow
        · exact h.past t hlogged
        · exact (mem_singleton.mp hnow).le
  by_cases hge : limit ≤ s.fails + 1
  · -- locked for `span` from now: every failure so far is old
    have hlock : (s.failed limit span logged).lockedUntil = some (s.now + span) := if_pos hge
    refine ⟨hrec ▸ hb, hrec ▸ hpast, old ++ recent', [], by simp [hrec], fun t ht => ?_,
      Nat.zero_le _, fun _ => rfl⟩
    have := hpast t ht
    exact Or.inr ⟨_, hlock, by omega⟩
  · exact ⟨hrec ▸ hb, hrec ▸ hpast, old, recent', hrec, fun t ht => Or.inl (hold t ht), hlen',
      fun hge' => absurd hge' hge⟩

theorem Move.inv (hlim : 0 < limit) (hm : Move limit span s s') (h : Inv limit span s) :
    Inv limit span s' := by
  cases hm with
  | wait hle => exact h.wait hle
  | fail logged ho => exact h.fail hlim ho logged
  | clear ho hs => exact h.clear ho hs

end Counter

end OciJanus.Verified.Lockout
