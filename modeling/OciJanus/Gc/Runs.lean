import OciJanus.Verified.KeyedTable
import OciJanus.Verified.Run
import Mathlib.Data.Fintype.Basic

/-!
# The rows of gc_runs and the replicas that execute them

No statement asks for the status that it replaces. Each is one step.
-/

namespace OciJanus.Gc.Runs

open Verified.KeyedTable Verified.Run List

inductive SweepMode where
  | dryRun
  | manifests
  | blobs
  | full
  deriving DecidableEq

inductive RunMode where
  | sweep (mode : SweepMode)
  | retention
  | retentionGrace
  deriving DecidableEq

def RunMode.isRetention : RunMode → Bool
  | .sweep _ => false
  | .retention | .retentionGrace => true

inductive RunStatus where
  | queued
  | running
  | succeeded
  | failed
  deriving DecidableEq

structure GCRun where
  runID : Nat
  (tenantID repoID : Option String)
  mode : RunMode
  status : RunStatus
  requestedAt : Int
  (startedAt completedAt durationMs : Option Int)
  (blobsFreed manifestsDeleted bytesFreed : Int)
  errorMessage : Option String
  triggeredBy : String
  deriving DecidableEq

abbrev GCRuns := Table GCRun Nat (·.runID)

def newRun (runID : Nat) (mode : RunMode) (tenantID repoID : Option String)
    (triggeredBy : String) (now : Int) : GCRun where
  runID := runID
  tenantID := tenantID
  repoID := repoID
  mode := mode
  status := .queued
  requestedAt := now
  startedAt := none
  completedAt := none
  durationMs := none
  blobsFreed := 0
  manifestsDeleted := 0
  bytesFreed := 0
  errorMessage := none
  triggeredBy := triggeredBy

inductive Statement where
  | startRun
  | completeRun (blobs manifests bytes : Int)
  | failRun (message : String)
  | finalizeRetentionRun (manifests blobs bytes : Int) (message : String)

def Statement.status : Statement → RunStatus
  | .startRun => .running
  | .completeRun .. => .succeeded
  | .failRun _ => .failed
  | .finalizeRetentionRun .. => .succeeded

def GCRun.ended (r : GCRun) (now : Int) : GCRun :=
  { r with
    completedAt := some now
    durationMs := some ((r.startedAt.map fun t => now - t).getD 0) }

def Statement.apply (now : Int) (r : GCRun) : Statement → GCRun
  | .startRun => { r with status := .running, startedAt := some now }
  | .completeRun blobs manifests bytes =>
    { r.ended now with
      status := .succeeded, blobsFreed := blobs, manifestsDeleted := manifests
      bytesFreed := bytes }
  | .failRun message => { r.ended now with status := .failed, errorMessage := some message }
  | .finalizeRetentionRun manifests blobs bytes message =>
    { r.ended now with
      status := .succeeded, manifestsDeleted := manifests, blobsFreed := blobs
      bytesFreed := bytes, errorMessage := if message = "" then none else some message }

theorem Statement.apply_runID (now : Int) (st : Statement) (r : GCRun) :
    (st.apply now r).runID = r.runID := by
  cases st <;> rfl

theorem Statement.apply_status (now : Int) (st : Statement) (r : GCRun) :
    (st.apply now r).status = st.status := by
  cases st <;> rfl

def rewriteRun (rows : GCRuns) (now : Int) (st : Statement) (runID : Nat) : GCRuns :=
  rows.modify runID (fun r => st.apply now r) (st.apply_runID now)

variable {rows : GCRuns}

theorem get_rewriteRun_self {runID : Nat} {row : GCRun}
    (h : rows.get runID = some row) (now : Int) (st : Statement) :
    (rewriteRun rows now st runID).get runID = some (st.apply now row) := by
  rw [rewriteRun, Table.get_modify_self, h, Option.map_some]

theorem get_rewriteRun_ne {runID id : Nat} (hid : id ≠ runID) (now : Int)
    (st : Statement) : (rewriteRun rows now st runID).get id = rows.get id := by
  rw [rewriteRun, Table.get_modify_ne hid]

theorem runID_of_mem_rewriteRun {runID : Nat} {now : Int} {st : Statement}
    {row : GCRun} (h : row ∈ (rewriteRun rows now st runID).rows) :
    ∃ q ∈ rows.rows, q.runID = row.runID := by
  rw [rewriteRun, Table.mem_modify_iff] at h
  rcases h with ⟨hrow, _⟩ | ⟨q, hq, _, rfl⟩
  · exact ⟨row, hrow, rfl⟩
  · exact ⟨q, hq, (st.apply_runID now q).symm⟩

inductive Outcome where
  | done
  | failed
  | lost
  deriving DecidableEq

inductive Pc where
  | idle
  | created (runID : Nat)
  | unstarted (runID : Nat)
  | claiming (runID : Nat) (mode : RunMode)
  | executing (runID : Nat) (mode : RunMode)
  | unrecorded (runID : Nat)
  deriving DecidableEq

/-- `executed` remembers which replica has executed which run. -/
structure System (n : Nat) where
  rows : GCRuns
  nextID : Nat
  pc : Fin n → Pc
  executed : List (Fin n × Nat)

inductive Record where
  | complete (blobs manifests bytes : Int)
  | sweepFailed (message : String)
  | finalize (manifests blobs bytes : Int) (message : String)
  | fail (message : String)
  | undispatched (message : String)

def Record.statement : Record → Statement
  | .complete blobs manifests bytes => .completeRun blobs manifests bytes
  | .sweepFailed message | .fail message | .undispatched message => .failRun message
  | .finalize manifests blobs bytes message =>
    .finalizeRetentionRun manifests blobs bytes message

def Record.fits (mode : RunMode) : Record → Bool
  | .complete .. | .sweepFailed _ => !mode.isRetention
  | .finalize .. | .fail _ | .undispatched _ => mode.isRetention

def Record.again : Record → Bool
  | .finalize .. | .fail _ => true
  | .complete .. | .sweepFailed _ | .undispatched _ => false

def Record.next (rec : Record) (runID : Nat) (o : Outcome) : Pc :=
  if rec.again ∧ o ≠ .done then .unrecorded runID else .idle

/-- A statement of a replica, which may take effect although its reply is lost. -/
inductive Action (n : Nat) where
  | enqueue (mode : RunMode) (tenantID repoID : Option String) (triggeredBy : String) (now : Int)
  | createRun (r : Fin n) (now : Int) (o : Outcome)
  | startRun (r : Fin n) (now : Int) (o : Outcome)
  | lockQueued (r : Fin n) (runID : Nat)
  | commitClaim (r : Fin n) (now : Int) (o : Outcome)
  | record (r : Fin n) (now : Int) (rec : Record) (o : Outcome)
  | failRun (r : Fin n) (now : Int) (err : String) (o : Outcome)
  | crash (r : Fin n)

namespace System

variable {n : Nat}

def fresh (n : Nat) : System n := ⟨⟨[], nodup_nil⟩, 0, fun _ => .idle, []⟩

def Locked (s : System n) (runID : Nat) : Prop :=
  ∃ r mode, s.pc r = .claiming runID mode

def claims (runID : Nat) : Pc → Bool
  | .claiming id _ => id = runID
  | _ => false

theorem locked_iff {s : System n} {runID : Nat} :
    s.Locked runID ↔ ∃ r, claims runID (s.pc r) = true := by
  unfold Locked
  refine exists_congr fun r => ?_
  cases s.pc r <;> simp [claims]

instance (s : System n) (runID : Nat) : Decidable (s.Locked runID) :=
  decidable_of_iff _ locked_iff.symm

def Next (s : System n) (row : GCRun) : Prop :=
  row.status = .queued ∧ ¬ s.Locked row.runID ∧
    ∀ q ∈ s.rows.rows, q.status = .queued → ¬ s.Locked q.runID → row.requestedAt ≤ q.requestedAt
  deriving Decidable

def goto (s : System n) (r : Fin n) (pc : Pc) : System n :=
  { s with pc := Function.update s.pc r pc }

def insert (s : System n) (mode : RunMode) (tenantID repoID : Option String)
    (triggeredBy : String) (now : Int) : System n :=
  { s with
    rows := s.rows.insertNew (newRun s.nextID mode tenantID repoID triggeredBy now)
    nextID := s.nextID + 1 }

def exec (s : System n) (now : Int) (st : Statement) (runID : Nat) (o : Outcome) : System n :=
  { s with rows := if o = .failed then s.rows else rewriteRun s.rows now st runID }

def begin (s : System n) (r : Fin n) (runID : Nat) (mode : RunMode) : System n :=
  { s with
    pc := Function.update s.pc r (.executing runID mode)
    executed := s.executed ++ [(r, runID)] }

def createRun (s : System n) (cfg : Fin n → SweepMode) (r : Fin n) (now : Int) (o : Outcome) :
    System n :=
  match s.pc r, o with
  | .idle, .done => (s.insert (.sweep (cfg r)) none none "cron" now).goto r (.created s.nextID)
  | .idle, .lost => s.insert (.sweep (cfg r)) none none "cron" now
  | _, _ => s

def startRun (s : System n) (cfg : Fin n → SweepMode) (r : Fin n) (now : Int) (o : Outcome) :
    System n :=
  match s.pc r with
  | .created runID =>
    -- an update of a locked row waits
    if s.Locked runID then s
    else if o = .done then (s.exec now .startRun runID o).begin r runID (.sweep (cfg r))
    else (s.exec now .startRun runID o).goto r (.unstarted runID)
  | _ => s

def lockQueued (s : System n) (r : Fin n) (runID : Nat) : System n :=
  match s.pc r, s.rows.get runID with
  | .idle, some row => if s.Next row then s.goto r (.claiming runID row.mode) else s
  | _, _ => s

def commitClaim (s : System n) (r : Fin n) (now : Int) (o : Outcome) : System n :=
  match s.pc r with
  | .claiming runID mode =>
    if o = .done then (s.exec now .startRun runID o).begin r runID mode
    else (s.exec now .startRun runID o).goto r .idle
  | _ => s

def record (s : System n) (r : Fin n) (now : Int) (rec : Record) (o : Outcome) : System n :=
  match s.pc r with
  | .executing runID mode =>
    if s.Locked runID ∨ rec.fits mode = false then s
    else (s.exec now rec.statement runID o).goto r (rec.next runID o)
  | _ => s

def failRun (s : System n) (r : Fin n) (now : Int) (err : String) (o : Outcome) : System n :=
  match s.pc r with
  | .unstarted runID =>
    if s.Locked runID then s
    else (s.exec now (.failRun ("start failed: " ++ err)) runID o).goto r .idle
  | .unrecorded runID =>
    if s.Locked runID then s else (s.exec now (.failRun err) runID o).goto r .idle
  | _ => s

def step (cfg : Fin n → SweepMode) (s : System n) : Action n → System n
  | .enqueue mode tenantID repoID triggeredBy now => s.insert mode tenantID repoID triggeredBy now
  | .createRun r now o => s.createRun cfg r now o
  | .startRun r now o => s.startRun cfg r now o
  | .lockQueued r runID => s.lockQueued r runID
  | .commitClaim r now o => s.commitClaim r now o
  | .record r now rec o => s.record r now rec o
  | .failRun r now err o => s.failRun r now err o
  | .crash r => s.goto r .idle

end System

def Moves : RunStatus → RunStatus → Prop
  | .queued, st => st = .queued ∨ st = .running
  | .running, st => st = .running ∨ st = .succeeded ∨ st = .failed
  | .succeeded, st => st = .succeeded
  | .failed, st => st = .failed

def RunStatus.Terminal (st : RunStatus) : Prop := st = .succeeded ∨ st = .failed

def Lawful {n : Nat} (s s' : System n) : Prop :=
  ∀ runID row, s.rows.get runID = some row → ∃ row', s'.rows.get runID = some row' ∧
    Moves row.status row'.status ∧ (row.status.Terminal → row' = row)

def ExecutedOnce {n : Nat} (s : System n) : Prop := (s.executed.map Prod.snd).Nodup

def Orderly {n : Nat} (s : System n) : Action n → Prop
  | .startRun _ _ o => o ≠ .failed
  | .lockQueued _ runID => ∀ r, s.pc r ≠ .created runID
  | .record _ _ rec o => rec.again = true → o ≠ .lost
  | _ => True

instance {n : Nat} (s : System n) : ∀ a : Action n, Decidable (Orderly s a)
  | .startRun _ _ o => inferInstanceAs (Decidable (o ≠ .failed))
  | .lockQueued _ runID => inferInstanceAs (Decidable (∀ r, s.pc r ≠ .created runID))
  | .record _ _ rec o => inferInstanceAs (Decidable (rec.again = true → o ≠ .lost))
  | .enqueue .. | .createRun .. | .commitClaim .. | .failRun .. | .crash _ => isTrue trivial

def Pc.holds : Pc → Option (Nat × RunStatus)
  | .idle => none
  | .created runID => some (runID, .queued)
  | .claiming runID _ => some (runID, .queued)
  | .unstarted runID => some (runID, .running)
  | .executing runID _ => some (runID, .running)
  | .unrecorded runID => some (runID, .running)

structure Sound {n : Nat} (s : System n) : Prop where
  fresh : ∀ row ∈ s.rows.rows, row.runID < s.nextID
  held : ∀ r runID st, (s.pc r).holds = some (runID, st) →
    ∃ row, s.rows.get runID = some row ∧ row.status = st
  unique : ∀ r r' runID st st', (s.pc r).holds = some (runID, st) →
    (s.pc r').holds = some (runID, st') → r = r'
  executed : ∀ runID ∈ s.executed.map Prod.snd,
    ∃ row, s.rows.get runID = some row ∧ row.status ≠ .queued
  once : ExecutedOnce s

theorem Lawful.refl {n : Nat} (s : System n) : Lawful s s := by
  intro runID row hrow
  refine ⟨row, hrow, ?_, fun _ => rfl⟩
  cases row.status <;> simp [Moves]

section
variable {n : Nat} {s s' : System n} {r : Fin n} {runID : Nat} {st : RunStatus}

variable {pc : Pc}

theorem Sound.advance (h : Sound s) (hpc : s'.pc = Function.update s.pc r pc)
    (hfresh : ∀ row ∈ s'.rows.rows, row.runID < s'.nextID)
    (hothers : ∀ r' ≠ r, ∀ id st', (s.pc r').holds = some (id, st') →
      s'.rows.get id = s.rows.get id) (hmine : ∀ id st', pc.holds = some (id, st') →
      (∃ row, s'.rows.get id = some row ∧ row.status = st') ∧
        ∀ r' ≠ r, ∀ st'', (s.pc r').holds ≠ some (id, st''))
    (hexecuted : ∀ id ∈ s'.executed.map Prod.snd,
      ∃ row, s'.rows.get id = some row ∧ row.status ≠ .queued)
    (honce : ExecutedOnce s') : Sound s' := by
  have hpc_self : s'.pc r = pc := by rw [hpc, Function.update_self]
  have hpc_ne : ∀ r' ≠ r, s'.pc r' = s.pc r' := fun r' hr => by
    rw [hpc, Function.update_of_ne hr]
  refine { fresh := hfresh, held := ?_, unique := ?_, executed := hexecuted, once := honce }
  · intro r' id st' hb
    by_cases hr : r' = r
    · rw [hr, hpc_self] at hb
      exact (hmine id st' hb).1
    · rw [hpc_ne r' hr] at hb
      rw [hothers r' hr id st' hb]
      exact h.held r' id st' hb
  · intro r' r'' id st' st'' hb hb'
    by_cases hr : r' = r
    · by_cases hr' : r'' = r
      · rw [hr, hr']
      · rw [hr, hpc_self] at hb
        rw [hpc_ne r'' hr'] at hb'
        exact absurd hb' ((hmine id st' hb).2 r'' hr' st'')
    · rw [hpc_ne r' hr] at hb
      by_cases hr' : r'' = r
      · rw [hr', hpc_self] at hb'
        exact absurd hb ((hmine id st'' hb').2 r' hr st')
      · rw [hpc_ne r'' hr'] at hb'
        exact h.unique r' r'' id st' st'' hb hb'

theorem Sound.others_free (h : Sound s) (hheld : (s.pc r).holds = some (runID, st)) :
    ∀ r' ≠ r, ∀ st', (s.pc r').holds ≠ some (runID, st') := fun r' hr _ hb =>
  hr (h.unique r' r runID _ _ hb hheld)

theorem Sound.goto (h : Sound s) (hpc : pc.holds = none ∨ pc.holds = (s.pc r).holds) :
    Sound (s.goto r pc) := by
  refine h.advance rfl h.fresh (fun _ _ _ _ _ => rfl) ?_ h.executed h.once
  intro id st' hb
  cases hpc with
  | inl hnone =>
    rw [hnone] at hb
    cases hb
  | inr heq =>
    rw [heq] at hb
    exact ⟨h.held r id st' hb, h.others_free hb⟩

theorem Sound.take (h : Sound s) {row : GCRun} (hrow : s.rows.get runID = some row)
    (hqueued : row.status = .queued) (hfree : ∀ r' st', (s.pc r').holds ≠ some (runID, st'))
    (hpc : pc.holds = some (runID, .queued)) : Sound (s.goto r pc) := by
  refine h.advance rfl h.fresh (fun _ _ _ _ _ => rfl) ?_ h.executed h.once
  intro id st' hb
  rw [hpc, Option.some.injEq, Prod.mk.injEq] at hb
  obtain ⟨rfl, rfl⟩ := hb
  exact ⟨⟨row, hrow, hqueued⟩, fun r' _ => hfree r'⟩

theorem Sound.nextID_free (h : Sound s) : s.rows.get s.nextID = none := by
  rw [Table.get_eq_none_iff]
  exact fun row hrow => Nat.ne_of_lt (h.fresh row hrow)

section
variable (mode : RunMode) (tenantID repoID : Option String) (triggeredBy : String) (now : Int)

theorem Sound.insert_get (h : Sound s) {id : Nat} {row : GCRun} (hrow : s.rows.get id = some row) :
    (s.insert mode tenantID repoID triggeredBy now).rows.get id = some row := by
  have hne : s.nextID ≠ id := by
    rintro rfl
    rw [h.nextID_free] at hrow
    cases hrow
  show (s.rows.insertNew (newRun s.nextID mode tenantID repoID triggeredBy now)).get id = _
  rw [Table.get_insertNew h.nextID_free]
  exact (if_neg hne).trans hrow

theorem Sound.insert_lawful (h : Sound s) :
    Lawful s (s.insert mode tenantID repoID triggeredBy now) := by
  intro id row hrow
  obtain ⟨_, hsame, hmoves, _⟩ := Lawful.refl s id row hrow
  rw [hrow, Option.some.injEq] at hsame
  subst hsame
  exact ⟨row, h.insert_get mode tenantID repoID triggeredBy now hrow, hmoves, fun _ => rfl⟩

theorem Sound.insert (h : Sound s) : Sound (s.insert mode tenantID repoID triggeredBy now) := by
  refine { fresh := ?_, held := ?_, unique := h.unique, executed := ?_, once := h.once }
  · intro row hrow
    show row.runID < s.nextID + 1
    rcases Table.mem_insertNew.mp hrow with hrow | ⟨rfl, _⟩
    · exact Nat.lt_succ_of_lt (h.fresh row hrow)
    · exact Nat.lt_succ_self _
  · intro r' id st' hb
    obtain ⟨row, hrow, hst⟩ := h.held r' id st' hb
    exact ⟨row, h.insert_get mode tenantID repoID triggeredBy now hrow, hst⟩
  · intro id hid
    obtain ⟨row, hrow, hst⟩ := h.executed id hid
    exact ⟨row, h.insert_get mode tenantID repoID triggeredBy now hrow, hst⟩

theorem Sound.create (h : Sound s) :
    Sound ((s.insert mode tenantID repoID triggeredBy now).goto r (.created s.nextID)) := by
  have hrow : (s.insert mode tenantID repoID triggeredBy now).rows.get s.nextID =
      some (newRun s.nextID mode tenantID repoID triggeredBy now) := by
    show (s.rows.insertNew _).get _ = _
    rw [Table.get_insertNew h.nextID_free]
    exact if_pos rfl
  refine (h.insert mode tenantID repoID triggeredBy now).take hrow rfl ?_ rfl
  intro r' st' hb
  obtain ⟨row, hold, _⟩ := h.held r' _ _ hb
  rw [h.nextID_free] at hold
  cases hold

end

section
variable {now : Int} {stm : Statement} {o : Outcome}

theorem exec_rows (s : System n) (now : Int) (stm : Statement) (runID : Nat) (o : Outcome) :
    (s.exec now stm runID o).rows =
      if o = .failed then s.rows else rewriteRun s.rows now stm runID := rfl

theorem exec_get_ne {id : Nat} (hid : id ≠ runID) :
    (s.exec now stm runID o).rows.get id = s.rows.get id := by
  rw [exec_rows]
  split_ifs
  · rfl
  · exact get_rewriteRun_ne hid now stm

theorem Statement.status_ne_queued (stm : Statement) : stm.status ≠ .queued := by
  cases stm <;> simp [Statement.status]

theorem Sound.exec_lawful (h : Sound s) (hheld : (s.pc r).holds = some (runID, st))
    (hmoves : o ≠ .failed → Moves st stm.status) (hlive : ¬ st.Terminal) :
    Lawful s (s.exec now stm runID o) := by
  intro id row hrow
  by_cases hid : id = runID
  · subst hid
    obtain ⟨row', hrow', hst⟩ := h.held r id st hheld
    rw [hrow, Option.some.injEq] at hrow'
    subst hrow'
    rw [exec_rows]
    split_ifs with ho
    · exact Lawful.refl s id row hrow
    · refine ⟨stm.apply now row, get_rewriteRun_self hrow now stm, ?_, ?_⟩
      · rw [stm.apply_status, hst]
        exact hmoves ho
      · rw [hst]
        exact fun hterminal => absurd hterminal hlive
  · rw [exec_get_ne hid]
    exact Lawful.refl s id row hrow

theorem Sound.exec_fresh (h : Sound s) :
    ∀ row ∈ (s.exec now stm runID o).rows.rows, row.runID < s.nextID := by
  intro row hrow
  rw [exec_rows] at hrow
  split_ifs at hrow
  · exact h.fresh row hrow
  · obtain ⟨q, hq, hid⟩ := runID_of_mem_rewriteRun hrow
    rw [← hid]
    exact h.fresh q hq

theorem Sound.exec_status (h : Sound s) (hheld : (s.pc r).holds = some (runID, st)) :
    ∃ row, (s.exec now stm runID o).rows.get runID = some row ∧
      row.status = if o = .failed then st else stm.status := by
  obtain ⟨row, hrow, hst⟩ := h.held r runID st hheld
  rw [exec_rows]
  split_ifs with ho
  · exact ⟨row, hrow, hst⟩
  · exact ⟨_, get_rewriteRun_self hrow now stm, stm.apply_status now row⟩

theorem Sound.exec_executed (h : Sound s) :
    ∀ id ∈ s.executed.map Prod.snd,
      ∃ row, (s.exec now stm runID o).rows.get id = some row ∧ row.status ≠ .queued := by
  intro id hid
  obtain ⟨row, hrow, hst⟩ := h.executed id hid
  by_cases heq : id = runID
  · subst heq
    rw [exec_rows]
    split_ifs
    · exact ⟨row, hrow, hst⟩
    · refine ⟨_, get_rewriteRun_self hrow now stm, ?_⟩
      rw [stm.apply_status]
      exact stm.status_ne_queued
  · exact ⟨row, (exec_get_ne heq).trans hrow, hst⟩

theorem Sound.exec_others (h : Sound s) (hheld : (s.pc r).holds = some (runID, st)) :
    ∀ r' ≠ r, ∀ id st', (s.pc r').holds = some (id, st') →
      (s.exec now stm runID o).rows.get id = s.rows.get id := by
  intro r' hr id st' hb
  apply exec_get_ne
  rintro rfl
  exact h.others_free hheld r' hr st' hb

theorem Sound.exec_goto (h : Sound s) (hheld : (s.pc r).holds = some (runID, st)) {pc : Pc}
    (hpc : pc.holds = none ∨ pc.holds = some (runID, if o = .failed then st else stm.status)) :
    Sound ((s.exec now stm runID o).goto r pc) := by
  refine h.advance rfl h.exec_fresh (h.exec_others hheld) ?_ h.exec_executed h.once
  intro id st' hb
  cases hpc with
  | inl hnone =>
    rw [hnone] at hb
    cases hb
  | inr hsame =>
    rw [hsame, Option.some.injEq, Prod.mk.injEq] at hb
    obtain ⟨rfl, rfl⟩ := hb
    exact ⟨h.exec_status hheld, h.others_free hheld⟩

theorem Sound.exec_begin (h : Sound s) (hheld : (s.pc r).holds = some (runID, .queued))
    (mode : RunMode) : Sound ((s.exec now .startRun runID .done).begin r runID mode) := by
  have hnew : runID ∉ s.executed.map Prod.snd := by
    intro hmem
    obtain ⟨row, hrow, hst⟩ := h.executed runID hmem
    obtain ⟨row', hrow', hst'⟩ := h.held r runID .queued hheld
    rw [hrow, Option.some.injEq] at hrow'
    subst hrow'
    exact hst hst'
  have hexecuted : ((s.exec now .startRun runID .done).begin r runID mode).executed.map Prod.snd =
      s.executed.map Prod.snd ++ [runID] := map_append
  have hrunning : ∃ row, (s.exec now .startRun runID .done).rows.get runID = some row ∧
      row.status = .running := h.exec_status hheld
  refine h.advance rfl h.exec_fresh (h.exec_others hheld) ?_ ?_ ?_
  · intro id st' hb
    cases hb
    exact ⟨hrunning, h.others_free hheld⟩
  · intro id hid
    rw [hexecuted, mem_append, mem_singleton] at hid
    rcases hid with hid | rfl
    · exact h.exec_executed id hid
    · obtain ⟨row, hrow, hst⟩ := hrunning
      exact ⟨row, hrow, by simp [hst]⟩
  · unfold ExecutedOnce
    rw [hexecuted]
    exact nodup_append_comm.mp (nodup_cons.mpr ⟨hnew, h.once⟩)

end

end

theorem not_terminal_queued : ¬ RunStatus.queued.Terminal := by simp [RunStatus.Terminal]

theorem not_terminal_running : ¬ RunStatus.running.Terminal := by simp [RunStatus.Terminal]

section
variable {n : Nat} {s : System n} (r : Fin n) (now : Int) (o : Outcome)

theorem createRun_sound (cfg : Fin n → SweepMode) (h : Sound s) :
    Sound (s.createRun cfg r now o) ∧ Lawful s (s.createRun cfg r now o) := by
  unfold System.createRun
  split
  · exact ⟨h.create _ _ _ _ _, h.insert_lawful _ _ _ _ _⟩
  · exact ⟨h.insert _ _ _ _ _, h.insert_lawful _ _ _ _ _⟩
  · exact ⟨h, Lawful.refl s⟩

theorem startRun_sound (cfg : Fin n → SweepMode) (h : Sound s) (ho : o ≠ .failed) :
    Sound (s.startRun cfg r now o) ∧ Lawful s (s.startRun cfg r now o) := by
  unfold System.startRun
  split
  · rename_i runID hpc
    have hheld : (s.pc r).holds = some (runID, .queued) := by rw [hpc, Pc.holds]
    have hlawful : Lawful s (s.exec now .startRun runID o) :=
      h.exec_lawful hheld (fun _ => Or.inr rfl) not_terminal_queued
    split_ifs with _ hdone
    · exact ⟨h, Lawful.refl s⟩
    · subst hdone
      exact ⟨h.exec_begin hheld _, hlawful⟩
    · -- a start that answers with an error has been written all the same
      refine ⟨h.exec_goto hheld (Or.inr ?_), hlawful⟩
      rw [if_neg ho]
      rfl
  · exact ⟨h, Lawful.refl s⟩

theorem lockQueued_sound (runID : Nat) (h : Sound s) (hstarted : ∀ r', s.pc r' ≠ .created runID) :
    Sound (s.lockQueued r runID) ∧ Lawful s (s.lockQueued r runID) := by
  unfold System.lockQueued
  split
  · rename_i row _ hrow
    split_ifs with hnext
    · refine ⟨h.take hrow hnext.1 ?_ rfl, Lawful.refl s⟩
      intro r' st' hb
      -- a replica that is busy with a queued row has created or locked it
      obtain ⟨row', hrow', hst⟩ := h.held r' runID st' hb
      rw [hrow, Option.some.injEq] at hrow'
      subst hrow'
      rw [hnext.1] at hst
      subst hst
      have hid : row.runID = runID := Table.key_of_get hrow
      cases hpc : s.pc r' with
      | created id =>
        rw [hpc, Pc.holds] at hb
        cases hb
        exact hstarted r' hpc
      | claiming id mode =>
        rw [hpc, Pc.holds] at hb
        cases hb
        exact hnext.2.1 ⟨r', mode, by rw [hpc, hid]⟩
      | idle | unstarted id | executing id mode | unrecorded id =>
        rw [hpc, Pc.holds] at hb
        cases hb
    · exact ⟨h, Lawful.refl s⟩
  · exact ⟨h, Lawful.refl s⟩

theorem commitClaim_sound (h : Sound s) :
    Sound (s.commitClaim r now o) ∧ Lawful s (s.commitClaim r now o) := by
  unfold System.commitClaim
  split
  · rename_i runID mode hpc
    have hheld : (s.pc r).holds = some (runID, .queued) := by rw [hpc, Pc.holds]
    have hlawful : Lawful s (s.exec now .startRun runID o) :=
      h.exec_lawful hheld (fun _ => Or.inr rfl) not_terminal_queued
    split_ifs with hdone
    · subst hdone
      exact ⟨h.exec_begin hheld _, hlawful⟩
    · exact ⟨h.exec_goto hheld (Or.inl rfl), hlawful⟩
  · exact ⟨h, Lawful.refl s⟩

theorem record_sound (rec : Record) (h : Sound s) (ho : rec.again = true → o ≠ .lost) :
    Sound (s.record r now rec o) ∧ Lawful s (s.record r now rec o) := by
  unfold System.record
  split
  · rename_i runID mode hpc
    have hheld : (s.pc r).holds = some (runID, .running) := by rw [hpc, Pc.holds]
    split_ifs with hblocked
    · exact ⟨h, Lawful.refl s⟩
    · refine ⟨h.exec_goto hheld ?_, h.exec_lawful hheld (fun _ => ?_) not_terminal_running⟩
      · unfold Record.next
        split_ifs with hagain hfailed
        · exact Or.inr rfl
        · -- an error that is recorded once more has left the row running
          cases o with
          | done => exact absurd rfl hagain.2
          | failed => exact absurd rfl hfailed
          | lost => exact absurd rfl (ho hagain.1)
        · exact Or.inl rfl
        · exact Or.inl rfl
      · cases rec <;> simp [Moves, Record.statement, Statement.status]
  · exact ⟨h, Lawful.refl s⟩

theorem failRun_sound (err : String) (h : Sound s) :
    Sound (s.failRun r now err o) ∧ Lawful s (s.failRun r now err o) := by
  have hfail : ∀ runID message, (s.pc r).holds = some (runID, .running) →
      Sound ((s.exec now (.failRun message) runID o).goto r .idle) ∧
        Lawful s ((s.exec now (.failRun message) runID o).goto r .idle) := by
    intro runID message hheld
    exact ⟨h.exec_goto hheld (Or.inl rfl),
      h.exec_lawful hheld (fun _ => Or.inr (Or.inr rfl)) not_terminal_running⟩
  unfold System.failRun
  split
  · rename_i runID hpc
    split_ifs
    · exact ⟨h, Lawful.refl s⟩
    · exact hfail runID _ (by rw [hpc, Pc.holds])
  · rename_i runID hpc
    split_ifs
    · exact ⟨h, Lawful.refl s⟩
    · exact hfail runID _ (by rw [hpc, Pc.holds])
  · exact ⟨h, Lawful.refl s⟩

end

theorem step_sound {n : Nat} (cfg : Fin n → SweepMode) (s : System n) (a : Action n)
    (h : Sound s) (ha : Orderly s a) : Sound (s.step cfg a) ∧ Lawful s (s.step cfg a) := by
  cases a with
  | enqueue => exact ⟨h.insert _ _ _ _ _, h.insert_lawful _ _ _ _ _⟩
  | createRun r now o => exact createRun_sound r now o cfg h
  | startRun r now o => exact startRun_sound r now o cfg h ha
  | lockQueued r runID => exact lockQueued_sound r runID h ha
  | commitClaim r now o => exact commitClaim_sound r now o h
  | record r now rec o => exact record_sound r now o rec h ha
  | failRun r now err o => exact failRun_sound r now o err h
  | crash r => exact ⟨h.goto (Or.inl rfl), Lawful.refl s⟩

theorem fresh_sound (n : Nat) : Sound (System.fresh n) where
  fresh _ h := absurd h not_mem_nil
  held _ _ _ h := nomatch h
  unique _ _ _ _ _ h := nomatch h
  executed _ h := absurd h not_mem_nil
  once := nodup_nil

/-- **Runs are executed once and end once** where every step is orderly. -/
theorem runs_end_once {n : Nat} (cfg : Fin n → SweepMode) (acts : List (Action n))
    (h : Guarded (System.step cfg) Orderly (System.fresh n) acts) :
    Guarded (System.step cfg) (fun s a => Lawful s (s.step cfg a)) (System.fresh n) acts ∧
      ExecutedOnce (run (System.step cfg) (System.fresh n) acts) := by
  constructor
  · exact guarded_of_invariant (step_sound cfg) (fresh_sound n) h
  · exact (run_invariant (fun s a hs ha => (step_sound cfg s a hs ha).1) (fresh_sound n) h).once

def twoReplicas : Fin 2 → SweepMode := fun _ => .full

def tickThenClaim : List (Action 2) :=
  [.createRun 0 0 .done, .startRun 0 1 .done, .enqueue (.sweep .dryRun) none none "u" 2,
    .lockQueued 1 1, .commitClaim 1 3 .done, .record 0 4 (.complete 1 2 3) .done,
    .record 1 5 (.complete 0 0 0) .done]

theorem tick_then_claim_ends_once :
    Guarded (System.step twoReplicas) (fun s a => Lawful s (s.step twoReplicas a))
        (System.fresh 2) tickThenClaim ∧
      ExecutedOnce (run (System.step twoReplicas) (System.fresh 2) tickThenClaim) :=
  runs_end_once twoReplicas tickThenClaim (by decide +kernel)

def claimedTick : List (Action 2) :=
  [.createRun 0 0 .done, .lockQueued 1 0, .commitClaim 1 1 .done,
    .record 1 2 (.complete 0 0 0) .done, .startRun 0 3 .done]

theorem claimed_tick_executed_twice :
    ((run (System.step twoReplicas) (System.fresh 2) (claimedTick.take 4)).rows.get 0).map
      (·.status) = some .succeeded ∧
    ((run (System.step twoReplicas) (System.fresh 2) claimedTick).rows.get 0).map
      (·.status) = some .running ∧
    (run (System.step twoReplicas) (System.fresh 2) claimedTick).executed = [(1, 0), (0, 0)] := by
  decide +kernel

end OciJanus.Gc.Runs
