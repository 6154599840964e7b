import OciJanus.Auth.MfaEnrollment

/-!
# Codes are spent once

Any number of `ConsumeMFACode` calls of one user, one SQL statement at a time.
-/

namespace OciJanus.Auth.MfaCodes

open Auth.MfaEnrollment Verified.Run List

inductive Call where
  | idle
  | consuming (st : MFAState) (code : String)
  | searching (code : String)
  | marking (id : String)

inductive Accepted where
  | totp (counter : Int)
  | backup (id : String)

/-- One user's factor and backup codes, the calls, and what they accepted. -/
structure System where
  mfa : MFAState
  codes : List BackupCode
  calls : Nat → Call
  accepted : List Accepted

/-- The statements of call `p`; a write may be carried out and its reply lost. -/
inductive Action where
  | getMFAState (p : Nat) (code : String)
  | advance (p : Nat) (now : Int) (replied : Bool)
  | listUnused (p : Nat) (id : String)
  | mark (p : Nat) (replied : Bool)

section
variable (env : Env) (s : System)

def System.goto (p : Nat) (c : Call) : System := { s with calls := Function.update s.calls p c }

def System.accept (p : Nat) (a : Accepted) (replied : Bool) : System :=
  { s with accepted := if replied then s.accepted ++ [a] else s.accepted }.goto p .idle

def advance (p : Nat) (st : MFAState) (code : String) (now : Int) (replied : Bool) : System :=
  match checkTOTP env st code now with
  | .error () => s.goto p .idle
  | .ok none => s.goto p (.searching code)
  | .ok (some (_, counter)) =>
    match advanceMFACounter s.mfa counter with
    | none => s.goto p (.searching code)
    | some m => { s with mfa := m }.accept p (.totp counter) replied

def markBackupCodeUsed (p : Nat) (id : String) (replied : Bool) : System :=
  if s.codes.any fun b => b.id = id ∧ b.used = false then
    { s with codes := s.codes.map (markUsed id) }.accept p (.backup id) replied
  else s.goto p .idle

def step : Action → System
  | .getMFAState p code =>
    if s.mfa.enabled = true ∧ s.mfa.secretEnc.isSome then s.goto p (.consuming s.mfa code)
    else s.goto p .idle
  | .advance p now replied =>
    match s.calls p with
    | .consuming st code => advance env s p st code now replied
    | _ => s
  | .listUnused p id =>
    match s.calls p with
    | .searching code =>
      if s.codes.any fun b => b.id = id ∧ b.used = false ∧ env.argon2 code b.codeHash = true then
        s.goto p (.marking id)
      else s.goto p .idle
    | _ => s
  | .mark p replied =>
    match s.calls p with
    | .marking id => markBackupCodeUsed s p id replied
    | _ => s

end

def counters (accepted : List Accepted) : List Int :=
  accepted.filterMap fun | .totp c => some c | .backup _ => none

def backups (accepted : List Accepted) : List String :=
  accepted.filterMap fun | .totp _ => none | .backup id => some id

structure Spent (s : System) : Prop where
  increasing : (counters s.accepted).Pairwise (· < ·)
  bounded : ∀ c ∈ counters s.accepted, ∃ last ∈ s.mfa.lastUsedCounter, c ≤ last
  nodup : (backups s.accepted).Nodup
  used : ∀ id ∈ backups s.accepted, ∀ b ∈ s.codes, b.id = id → b.used = true

namespace Spent

variable {env : Env} {s : System} {p : Nat}

theorem goto (h : Spent s) (c : Call) : Spent (s.goto p c) := ⟨h.1, h.2, h.3, h.4⟩

theorem advanced (h : Spent s) {counter : Int} {m : MFAState}
    (hm : advanceMFACounter s.mfa counter = some m) (replied : Bool) :
    Spent ({ s with mfa := m }.accept p (.totp counter) replied) := by
  unfold advanceMFACounter at hm
  split_ifs at hm with hlast
  cases hm
  have hbelow : ∀ c ∈ counters s.accepted, c < counter := by
    intro c hc
    obtain ⟨last, hmem, hle⟩ := h.bounded c hc
    rw [Option.mem_def.mp hmem, Option.all_some, decide_eq_true_eq] at hlast
    omega
  unfold System.accept
  cases replied with
  | false => exact ⟨h.increasing, fun c hc => ⟨counter, rfl, (hbelow c hc).le⟩, h.nodup, h.used⟩
  | true =>
    have hcounters : counters (s.accepted ++ [.totp counter]) = counters s.accepted ++ [counter] :=
      filterMap_append
    have hbackups : backups (s.accepted ++ [.totp counter]) = backups s.accepted := by
      simp [backups]
    refine ⟨?_, fun c hc => ⟨counter, rfl, ?_⟩, hbackups ▸ h.nodup, hbackups ▸ h.used⟩
    · show (counters (s.accepted ++ [.totp counter])).Pairwise _
      rw [hcounters]
      exact pairwise_append.mpr ⟨h.increasing, pairwise_singleton _ _,
        fun a ha b hb => mem_singleton.mp hb ▸ hbelow a ha⟩
    · have hc : c ∈ counters s.accepted ++ [counter] := hcounters ▸ hc
      rcases mem_append.mp hc with hold | hnew
      · exact (hbelow c hold).le
      · exact (mem_singleton.mp hnew).le

theorem marked (h : Spent s) (id : String) (replied : Bool) :
    Spent (markBackupCodeUsed s p id replied) := by
  unfold markBackupCodeUsed
  split_ifs with hunused
  · have hused : ∀ id' ∈ backups s.accepted ++ [id], ∀ b ∈ s.codes.map (markUsed id),
        b.id = id' → b.used = true := by
      intro id' hid' b hb heq
      obtain ⟨old, hold, rfl⟩ := mem_map.mp hb
      unfold markUsed at heq ⊢
      split_ifs at heq ⊢ with hold'
      · rfl
      · rcases mem_append.mp hid' with hid' | hid'
        · exact h.used id' hid' old hold heq
        · exact absurd (heq.trans (mem_singleton.mp hid')) hold'
    unfold System.accept
    cases replied with
    | false =>
      exact ⟨h.increasing, h.bounded, h.nodup,
        fun id' hid' => hused id' (mem_append_left _ hid')⟩
    | true =>
      have hcounters : counters (s.accepted ++ [.backup id]) = counters s.accepted := by
        simp [counters]
      have hbackups : backups (s.accepted ++ [.backup id]) = backups s.accepted ++ [id] :=
        filterMap_append
      have hnew : id ∉ backups s.accepted := by
        intro hmem
        obtain ⟨b, hb, hcond⟩ := any_eq_true.mp hunused
        obtain ⟨hid, hfree⟩ := of_decide_eq_true hcond
        exact Bool.false_ne_true (hfree.symm.trans (h.used id hmem b hb hid))
      refine ⟨hcounters ▸ h.increasing, hcounters ▸ h.bounded, ?_, ?_⟩
      · show (backups (s.accepted ++ [.backup id])).Nodup
        rw [hbackups]
        refine nodup_append.mpr ⟨h.nodup, by simp, ?_⟩
        rintro a ha b hb rfl
        exact hnew (mem_singleton.mp hb ▸ ha)
      · show ∀ id' ∈ backups (s.accepted ++ [.backup id]), _
        rw [hbackups]
        exact hused
  · exact h.goto _

theorem step (h : Spent s) (a : Action) : Spent (MfaCodes.step env s a) := by
  cases a with
  | getMFAState q code =>
    rw [MfaCodes.step]
    split_ifs
    · exact h.goto _
    · exact h.goto _
  | advance q now replied =>
    rw [MfaCodes.step]
    split
    · unfold MfaCodes.advance
      split
      · exact h.goto _
      · exact h.goto _
      · split
        · exact h.goto _
        · exact h.advanced ‹_› replied
    · exact h
  | listUnused q id =>
    rw [MfaCodes.step]
    split
    · split_ifs
      · exact h.goto _
      · exact h.goto _
    · exact h
  | mark q replied =>
    rw [MfaCodes.step]
    split
    · exact h.marked _ replied
    · exact h

end Spent

/-- **Codes are used once**, however the statements interleave. -/
theorem codes_spent_once (env : Env) (mfa : MFAState) (codes : List BackupCode)
    (acts : List Action) :
    (counters (run (step env) ⟨mfa, codes, fun _ => .idle, []⟩ acts).accepted).Pairwise (· < ·) ∧
      (backups (run (step env) ⟨mfa, codes, fun _ => .idle, []⟩ acts).accepted).Nodup := by
  have hstart : Spent ⟨mfa, codes, fun _ => .idle, []⟩ :=
    ⟨List.Pairwise.nil, by simp [counters], nodup_nil, by simp [backups]⟩
  have hstep : ∀ s a, Spent s → True → Spent (step env s a) := fun _ a h _ => h.step a
  have hguard : Guarded (step env) (fun _ _ => True) ⟨mfa, codes, fun _ => .idle, []⟩ acts :=
    guarded_of_forall fun _ _ => trivial
  have hend := run_invariant hstep hstart hguard
  exact ⟨hend.increasing, hend.nodup⟩

end OciJanus.Auth.MfaCodes
