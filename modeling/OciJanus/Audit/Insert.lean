import OciJanus.Verified.Run
import OciJanus.Audit.Exactness

/-!
# `Insert` under concurrency

Each statement of `Repository.Insert` is one action. Of Postgres: the advisory lock is exclusive
until the transaction ends, a commit publishes the row and releases the lock at once, `chain_seq`
never goes back, and a `SELECT` sees committed rows only.
-/

namespace OciJanus.Audit.Insert

open List

open Verified Sha256 Json Rfc3339 LinkedChain Run Audit.HashChain Audit.VerifyChain
  Audit.Exactness

structure Row extends RowRec where
  chainSeq : Nat
  deriving DecidableEq

inductive Phase where
  | waiting
  | locked
  | tipRead (prevHash : Bytes)
  | inserted (row : Row)
  | committed (row : Row)
  | rolledBack

structure Tx where
  ev : AuditEvent
  phase : Phase

/-- The committed rows, the next value of the sequence, and the transactions. -/
structure Db where
  table : List Row
  nextSeq : Nat
  txs : List Tx

def tenantRows (table : List Row) (tenantID : UUID) : List Row :=
  table.filter fun r => r.ev.tenantID = tenantID

def latest : List Row → Option Row
  | [] => none
  | r :: rows =>
    match latest rows with
    | none => some r
    | some s => if s.chainSeq < r.chainSeq then some r else some s

def tipHash (table : List Row) (tenantID : UUID) : Bytes :=
  match latest (tenantRows table tenantID) with
  | none => genesisPrevHash
  | some r => r.rowHash

def Phase.holdsLock : Phase → Bool
  | .locked | .tipRead _ | .inserted _ => true
  | .waiting | .committed _ | .rolledBack => false

def Tx.lockKey (tx : Tx) : Int64 := tenantAdvisoryLockKey tx.ev.tenantID

def lockFree (s : Db) (key : Int64) : Bool :=
  s.txs.all fun tx => !(tx.phase.holdsLock && tx.lockKey == key)

def prepare (e : AuditEvent) (now : Time) : Option AuditEvent :=
  if e.tenantID = UUID.nil then none
  else
    let occurredAt := if e.occurredAt = 0 then now else e.occurredAt
    some { e with
      metadata := some (e.metadata.getD (Verified.Utf8.stringBytes "\x7b\x7d"))
      occurredAt := truncateMicro occurredAt }

def newRandom (bytes : UUID) : UUID :=
  (bytes.set 6 ((bytes[6] &&& 0x0f) ||| 0x40)).set 8 ((bytes[8] &&& 0x3f) ||| 0x80)

def checksPass (e : AuditEvent) : Bool :=
  ["user", "robot", "system"].contains e.actorType && ["success", "failure"].contains e.outcome

def withID (e : AuditEvent) (bytes : UUID) : AuditEvent :=
  if e.id = UUID.nil then { e with id := newRandom bytes } else e

def keyTaken (rows : List Row) (e : AuditEvent) : Bool :=
  rows.any fun r => r.ev.id = e.id && r.ev.occurredAt = e.occurredAt

def Phase.pendingRow : Phase → Option Row
  | .inserted row => some row
  | _ => none

def Phase.committedRow : Phase → Option Row
  | .committed row => some row
  | _ => none

section

variable (jsonb : Bytes → Option Bytes)

def sealRow (s : Db) (prevHash : Bytes) (e : AuditEvent) : Option Row := do
  let rowHash ← computeRowHash prevHash e
  let stored ← jsonb (e.metadata.getD [])
  if checksPass e && !keyTaken s.table e then
    some { ev := { e with metadata := some stored }
           prevHash := prevHash, rowHash := rowHash, chainSeq := s.nextSeq }
  else none

inductive Stmt where
  | lock
  | readTip
  | insert (bytes : UUID)
  | commit
  | rollback

/-- A call of `Insert`, or the next statement of call `i`. -/
inductive Action where
  | begin (e : AuditEvent) (now : Time)
  | exec (i : Nat) (stmt : Stmt)

def Db.setPhase (s : Db) (i : Nat) (tx : Tx) (p : Phase) : Db :=
  { s with txs := s.txs.set i { tx with phase := p } }

def exec (s : Db) (i : Nat) (tx : Tx) (stmt : Stmt) : Db :=
  match stmt, tx.phase with
  | .lock, .waiting =>
    if lockFree s tx.lockKey then s.setPhase i tx .locked else s
  | .readTip, .locked =>
    s.setPhase i tx (.tipRead (tipHash s.table tx.ev.tenantID))
  | .insert bytes, .tipRead prevHash =>
    let e := withID tx.ev bytes
    -- the key of an uncommitted row makes the statement wait
    if keyTaken (s.txs.filterMap fun tx => tx.phase.pendingRow) e then s
    else
      match sealRow jsonb s prevHash e with
      | some row =>
        { s.setPhase i tx (.inserted row) with nextSeq := s.nextSeq + 1 }
      | none =>
        -- a sequence value is not given back
        { s.setPhase i tx .rolledBack with nextSeq := s.nextSeq + 1 }
  | .commit, .inserted row =>
    { s.setPhase i tx (.committed row) with table := s.table ++ [row] }
  | .rollback, .committed _ => s
  | .rollback, _ => s.setPhase i tx .rolledBack
  | _, _ => s

def step (s : Db) : Action → Db
  | .begin e now =>
    match prepare e now with
    | none => s
    | some e' => { s with txs := s.txs ++ [⟨e', .waiting⟩] }
  | .exec i stmt =>
    match s.txs[i]? with
    | none => s
    | some tx => exec jsonb s i tx stmt

end

theorem tenantRows_append (table : List Row) (row : Row) (t : UUID) :
    tenantRows (table ++ [row]) t = if row.ev.tenantID = t then tenantRows table t ++ [row]
      else tenantRows table t := by
  unfold tenantRows
  rw [filter_append]
  split <;> simp_all

theorem latest_append_singleton (rows : List Row) (row : Row)
    (h : ∀ r ∈ rows, r.chainSeq < row.chainSeq) : latest (rows ++ [row]) = some row := by
  induction rows with
  | nil => rfl
  | cons r rows ih =>
    have hr := h r (by simp)
    simp only [cons_append, latest, ih fun s hs => h s (by simp [hs])]
    rw [if_neg (by omega)]

variable {rows table : List Row} {t : UUID}

theorem latest_mem {r : Row} (h : latest rows = some r) : r ∈ rows := by
  induction rows generalizing r with
  | nil => simp [latest] at h
  | cons s rows ih =>
    unfold latest at h
    split at h
    · simp_all
    · rename_i s' hs'
      split at h
      · simp_all
      · simp only [Option.some.injEq] at h
        exact mem_cons_of_mem _ (ih (h ▸ hs'))

theorem tipHash_append_other {row : Row}
    (h : row.ev.tenantID ≠ t) : tipHash (table ++ [row]) t = tipHash table t := by
  simp [tipHash, tenantRows_append, h]

theorem tipHash_of_preChain (h : ∀ r ∈ table, isPreChain r.toRowRec = true) (t : UUID) :
    tipHash table t = genesisPrevHash := by
  unfold tipHash
  split
  · rfl
  · rename_i r hr
    have hpre := h r (mem_of_mem_filter (latest_mem hr))
    simp only [isPreChain, Bool.and_eq_true, bytesEqual_iff] at hpre
    exact hpre.2

def Faithful (jsonb : Bytes → Option Bytes) (e : AuditEvent) : Prop :=
  ∀ stored, jsonb (e.metadata.getD []) = some stored →
    canonicaliseJSON (metadataText { e with metadata := some stored }) =
      canonicaliseJSON (metadataText e)

def Phase.Ok (table : List Row) (nextSeq : Nat) (tenantID : UUID) : Phase → Prop
  | .tipRead prevHash => prevHash = tipHash table tenantID
  | .inserted row =>
    row.ev.tenantID = tenantID ∧ row.prevHash = tipHash table tenantID ∧
      (Verifies row.toRowRec ∧ row.ev.id ≠ UUID.nil) ∧
      (∀ r ∈ tenantRows table tenantID, r.chainSeq < row.chainSeq) ∧
      row.chainSeq < nextSeq
  | _ => True

def committedRows (s : Db) : List Row :=
  s.txs.filterMap fun tx => tx.phase.committedRow

def selectTenant (rows : List Row) (tenantID : UUID) : List RowRec :=
  (tenantRows rows tenantID).map Row.toRowRec

structure Inv (jsonb : Bytes → Option Bytes) (base new gone : List Row) (s : Db) :
    Prop where
  table_eq : s.table = base ++ new
  base_pre : ∀ r ∈ base, isPreChain r.toRowRec = true
  verified : ∀ r ∈ new, Verifies r.toRowRec ∧ r.ev.id ≠ UUID.nil
  linked : ∀ t, links.Linked genesisPrevHash (selectTenant new t)
  sorted : ∀ t, (tenantRows new t).Pairwise fun a b => a.chainSeq < b.chainSeq
  base_lt : ∀ b ∈ base, ∀ r ∈ new, b.ev.tenantID = r.ev.tenantID → b.chainSeq < r.chainSeq
  committed : (gone ++ new).Perm (committedRows s)
  seq : ∀ r ∈ s.table, r.chainSeq < s.nextSeq
  phases : ∀ (i : Nat) (tx : Tx), s.txs[i]? = some tx →
    tx.phase.Ok s.table s.nextSeq tx.ev.tenantID ∧ Faithful jsonb tx.ev
  exclusive : ∀ (i j : Nat) (a b : Tx), s.txs[i]? = some a → s.txs[j]? = some b →
    a.phase.holdsLock = true → b.phase.holdsLock = true →
    a.lockKey = b.lockKey → i = j

theorem mem_tenantRows {r : Row} : r ∈ tenantRows rows t ↔ r ∈ rows ∧ r.ev.tenantID = t := by
  simp [tenantRows]

theorem Inv.tip {jsonb : Bytes → Option Bytes} {base new gone : List Row} {s : Db}
    (h : Inv jsonb base new gone s) (t : UUID) :
    tipHash s.table t = links.tip genesisPrevHash (selectTenant new t) := by
  have hrows : tenantRows s.table t = tenantRows base t ++ tenantRows new t := by
    simp [tenantRows, h.table_eq]
  rcases eq_nil_or_concat (tenantRows new t) with hnil | ⟨rows, r, hrows'⟩
  · rw [selectTenant, hnil, tipHash, hrows, hnil, append_nil]
    exact tipHash_of_preChain h.base_pre t
  · rw [concat_eq_append] at hrows'
    have hmax : ∀ x ∈ tenantRows base t ++ rows, x.chainSeq < r.chainSeq := by
      have hr : r ∈ tenantRows new t := by simp [hrows']
      intro x hx
      rcases mem_append.mp hx with hx | hx
      · obtain ⟨hx, htx⟩ := mem_tenantRows.mp hx
        obtain ⟨hr, htr⟩ := mem_tenantRows.mp hr
        exact h.base_lt x hx r hr (htx.trans htr.symm)
      · have hsorted := h.sorted t
        rw [hrows', pairwise_append] at hsorted
        exact hsorted.2.2 x hx r (by simp)
    rw [tipHash, hrows, hrows', ← append_assoc, latest_append_singleton _ _ hmax,
      selectTenant, hrows', map_append]
    exact (links.tip_append_singleton _ _ _).symm

variable {n : Nat} {p : Phase}

theorem Phase.Ok.mono {m : Nat} (h : p.Ok table n t) (hnm : n ≤ m) : p.Ok table m t := by
  cases p <;> simp only [Phase.Ok] at h ⊢
  · exact h
  · exact ⟨h.1, h.2.1, h.2.2.1, h.2.2.2.1, h.2.2.2.2.trans_le hnm⟩

theorem Phase.Ok.of_unlocked (h : p.holdsLock = false) : p.Ok table n t := by
  cases p <;> simp_all [Phase.Ok, Phase.holdsLock]

theorem Phase.Ok.append_other {row : Row} (h : p.Ok table n t) (hne : row.ev.tenantID ≠ t) :
    p.Ok (table ++ [row]) n t := by
  cases p <;>
    simp only [Phase.Ok, tipHash_append_other hne, tenantRows_append, if_neg hne] at h ⊢
  · exact h
  · exact h

theorem getElem?_set_cases {l : List Tx} {i j : Nat} {a b : Tx}
    (h : (l.set i a)[j]? = some b) : (i = j ∧ b = a) ∨ (i ≠ j ∧ l[j]? = some b) := by
  rw [List.getElem?_set] at h
  split at h
  · split at h
    · exact .inl ⟨‹_›, (Option.some.inj h).symm⟩
    · cases h
  · exact .inr ⟨‹_›, h⟩

theorem set_split {l : List Tx} {i : Nat} {a : Tx} (h : l[i]? = some a) (b : Tx) :
    ∃ l₁ l₂, l = l₁ ++ a :: l₂ ∧ l.set i b = l₁ ++ b :: l₂ := by
  obtain ⟨hi, rfl⟩ := List.getElem?_eq_some_iff.mp h
  exact ⟨l.take i, l.drop (i + 1), by simp, set_eq_take_append_cons_drop ▸ by simp [hi]⟩

theorem committedRows_setPhase {s : Db} {i : Nat} {tx : Tx}
    (hi : s.txs[i]? = some tx) (hc : tx.phase.committedRow = none) (hp : p.committedRow = none) :
    committedRows (s.setPhase i tx p) = committedRows s := by
  obtain ⟨l₁, l₂, h₁, h₂⟩ := set_split hi { tx with phase := p }
  unfold committedRows Db.setPhase
  rw [h₂, h₁]
  simp [hc, hp]

theorem committedRows_commit {s : Db} {i : Nat} {tx : Tx}
    (hi : s.txs[i]? = some tx) (hc : tx.phase.committedRow = none) (row : Row) :
    (committedRows (s.setPhase i tx (.committed row))).Perm (row :: committedRows s) := by
  obtain ⟨l₁, l₂, h₁, h₂⟩ := set_split hi { tx with phase := .committed row }
  unfold committedRows Db.setPhase
  rw [h₂, h₁]
  simp only [filterMap_append, filterMap_cons, hc]
  exact perm_middle

theorem lockFree_iff {s : Db} {key : Int64} :
    lockFree s key = true ↔ ∀ (i : Nat) (tx : Tx), s.txs[i]? = some tx →
      tx.phase.holdsLock = true → tx.lockKey ≠ key := by
  simp only [lockFree, all_eq_true, Bool.not_eq_true', Bool.and_eq_false_iff,
    beq_eq_false_iff_ne]
  constructor
  · intro h i tx hi hold
    exact (h tx (mem_of_getElem? hi)).resolve_left (by simp [hold])
  · intro h tx htx
    obtain ⟨i, hi⟩ := mem_iff_getElem?.mp htx
    cases hold : tx.phase.holdsLock with
    | false => exact .inl rfl
    | true => exact .inr (h i tx hi hold)

section Steps

variable {jsonb : Bytes → Option Bytes} {base new gone : List Row} {s : Db}
variable {i : Nat} {tx : Tx}

theorem Inv.setPhase (h : Inv jsonb base new gone s) (hi : s.txs[i]? = some tx)
    {p : Phase} {n : Nat} (hn : s.nextSeq ≤ n)
    (hc : tx.phase.committedRow = none) (hp : p.committedRow = none)
    (hok : p.Ok s.table n tx.ev.tenantID) (hlock : p.holdsLock = true →
      tx.phase.holdsLock = true ∨ lockFree s tx.lockKey = true) :
    Inv jsonb base new gone { s.setPhase i tx p with nextSeq := n } where
  table_eq := h.table_eq
  base_pre := h.base_pre
  verified := h.verified
  linked := h.linked
  sorted := h.sorted
  base_lt := h.base_lt
  committed := h.committed.trans (.of_eq (committedRows_setPhase hi hc hp).symm)
  seq r hr := (h.seq r hr).trans_le hn
  phases j b hj := by
    rcases getElem?_set_cases hj with ⟨-, rfl⟩ | ⟨-, hj⟩
    · exact ⟨hok, (h.phases i tx hi).2⟩
    · exact ⟨(h.phases j b hj).1.mono hn, (h.phases j b hj).2⟩
  exclusive j k a b hj hk hold hold' hkey := by
    -- only the moved transaction can be a new holder
    have hmoved : ∀ (k : Nat) (b : Tx), s.txs[k]? = some b → i ≠ k →
        b.phase.holdsLock = true → p.holdsLock = true → tx.lockKey ≠ b.lockKey := by
      intro k b hk hik hold hold' hkey
      rcases hlock hold' with hheld | hfree
      · exact hik (h.exclusive i k tx b hi hk hheld hold hkey)
      · exact lockFree_iff.mp hfree k b hk hold hkey.symm
    rcases getElem?_set_cases hj with ⟨rfl, rfl⟩ | ⟨hij, hj⟩ <;>
      rcases getElem?_set_cases hk with ⟨rfl, rfl⟩ | ⟨hik, hk⟩
    · rfl
    · exact absurd hkey (hmoved k b hk hik hold' hold)
    · exact absurd hkey.symm (hmoved j a hj hij hold hold')
    · exact h.exclusive j k a b hj hk hold hold' hkey

theorem selectTenant_append_self (row : Row) :
    selectTenant (new ++ [row]) row.ev.tenantID =
      selectTenant new row.ev.tenantID ++ [row.toRowRec] := by
  simp [selectTenant, tenantRows_append]

variable {row : Row} {e : AuditEvent}

theorem selectTenant_append_other {t : UUID} (h : row.ev.tenantID ≠ t) :
    selectTenant (new ++ [row]) t = selectTenant new t := by
  simp [selectTenant, tenantRows_append, h]

theorem Inv.commit (h : Inv jsonb base new gone s) (hi : s.txs[i]? = some tx)
    (hrow : tx.phase = .inserted row) :
    Inv jsonb base (new ++ [row]) gone
      { s.setPhase i tx (.committed row) with table := s.table ++ [row] } := by
  obtain ⟨hok, -⟩ := h.phases i tx hi
  simp only [hrow, Phase.Ok] at hok
  obtain ⟨htenant, hprev, hv, hmax, hseq⟩ := hok
  rw [← htenant] at hprev hmax
  refine
    { table_eq := by simp [h.table_eq]
      base_pre := h.base_pre
      verified := ?verified, linked := ?linked, sorted := ?sorted, base_lt := ?base_lt
      committed := ?committed, seq := ?seq, phases := ?phases, exclusive := ?exclusive }
  case verified =>
    intro r hr
    rcases mem_append.mp hr with hr | hr
    · exact h.verified r hr
    · exact mem_singleton.mp hr ▸ hv
  case linked =>
    intro t
    by_cases ht : row.ev.tenantID = t
    · subst ht
      rw [selectTenant_append_self, Links.linked_append]
      exact ⟨h.linked _, hprev.trans (h.tip _), trivial⟩
    · rw [selectTenant_append_other ht]
      exact h.linked t
  case sorted =>
    intro t
    rw [tenantRows_append]
    split
    · rename_i ht
      subst ht
      refine pairwise_append.mpr ⟨h.sorted _, by simp, fun x hx y hy => ?_⟩
      rw [mem_singleton.mp hy]
      refine hmax x (mem_tenantRows.mpr ⟨?_, (mem_tenantRows.mp hx).2⟩)
      simp [h.table_eq, (mem_tenantRows.mp hx).1]
    · exact h.sorted t
  case base_lt =>
    intro b hb x hx ht
    rcases mem_append.mp hx with hx | hx
    · exact h.base_lt b hb x hx ht
    · rw [mem_singleton.mp hx] at ht ⊢
      exact hmax b (mem_tenantRows.mpr ⟨by simp [h.table_eq, hb], ht⟩)
  case committed =>
    refine List.Perm.trans ?_
      (committedRows_commit hi (by simp [hrow, Phase.committedRow]) row).symm
    rw [← append_assoc]
    exact perm_append_comm.trans (h.committed.cons row)
  case seq =>
    intro r hr
    rcases mem_append.mp hr with hr | hr
    · exact h.seq r hr
    · exact mem_singleton.mp hr ▸ hseq
  case phases =>
    intro j b hj
    rcases getElem?_set_cases hj with ⟨-, rfl⟩ | ⟨hij, hj⟩
    · exact ⟨trivial, (h.phases i tx hi).2⟩
    · refine ⟨?_, (h.phases j b hj).2⟩
      cases hold : b.phase.holdsLock with
      | false => exact .of_unlocked hold
      | true =>
        -- a second holder has another key, hence another tenant
        refine (h.phases j b hj).1.append_other fun heq => hij ?_
        refine h.exclusive i j tx b hi hj (by simp [hrow, Phase.holdsLock]) hold ?_
        simp only [Tx.lockKey, ← htenant, heq]
  case exclusive =>
    intro j k a b hj hk hold hold' hkey
    rcases getElem?_set_cases hj with ⟨rfl, rfl⟩ | ⟨-, hj⟩
    · simp [Phase.holdsLock] at hold
    rcases getElem?_set_cases hk with ⟨rfl, rfl⟩ | ⟨-, hk⟩
    · simp [Phase.holdsLock] at hold'
    exact h.exclusive j k a b hj hk hold hold' hkey

theorem computeRowHash_stored (he : Faithful jsonb e)
    {stored : Bytes} (hs : jsonb (e.metadata.getD []) = some stored) (prev : Bytes) :
    computeRowHash prev { e with metadata := some stored } =
      computeRowHash prev e := by
  have hcanon := he stored hs
  simp only [computeRowHash, canonicalRowBytes, canonicalPayload, hashedFields, hcanon]

theorem Faithful.withID (he : Faithful jsonb e) (bytes : UUID) :
    Faithful jsonb (withID e bytes) := by
  unfold Insert.withID
  split
  · exact he
  · exact he

theorem newRandom_ne_nil (bytes : UUID) : newRandom bytes ≠ UUID.nil := by
  intro h
  have hbyte : (newRandom bytes)[6] = 0 := by
    rw [h]
    simp [UUID.nil]
  simp only [newRandom] at hbyte
  rw [Vector.getElem_set_ne _ _ (by decide), Vector.getElem_set_self] at hbyte
  exact absurd ((UInt8.or_eq_zero_iff.mp hbyte).2) (by decide)

theorem withID_ne_nil (e : AuditEvent) (bytes : UUID) : (withID e bytes).id ≠ UUID.nil := by
  unfold withID
  split
  · exact newRandom_ne_nil bytes
  · assumption

theorem withID_tenantID (e : AuditEvent) (bytes : UUID) :
    (withID e bytes).tenantID = e.tenantID := by
  unfold withID
  split <;> rfl

theorem sealRow_spec {prevHash : Bytes}
    (he : Faithful jsonb e) (h : sealRow jsonb s prevHash e = some row) :
    row.ev.tenantID = e.tenantID ∧ row.ev.id = e.id ∧ row.prevHash = prevHash ∧
      Verifies row.toRowRec ∧ row.chainSeq = s.nextSeq := by
  unfold sealRow at h
  obtain ⟨rowHash, hhash, h⟩ := Option.bind_eq_some_iff.mp h
  obtain ⟨stored, hstored, h⟩ := Option.bind_eq_some_iff.mp h
  split at h
  · obtain rfl := Option.some.inj h
    refine ⟨rfl, rfl, rfl, ?_, rfl⟩
    exact (computeRowHash_stored he hstored prevHash).trans hhash
  · cases h

theorem Inv.inserted_ok (h : Inv jsonb base new gone s) (hi : s.txs[i]? = some tx)
    {prevHash : Bytes} (htip : tx.phase = .tipRead prevHash) {bytes : UUID}
    (hrow : sealRow jsonb s prevHash (withID tx.ev bytes) = some row) :
    (Phase.inserted row).Ok s.table (s.nextSeq + 1) tx.ev.tenantID := by
  obtain ⟨hok, hfaith⟩ := h.phases i tx hi
  simp only [htip, Phase.Ok] at hok
  obtain ⟨htenant, hid, hprev, hv, hseq⟩ := sealRow_spec (hfaith.withID bytes) hrow
  refine ⟨htenant.trans (withID_tenantID _ _), hprev.trans hok,
    ⟨hv, hid ▸ withID_ne_nil _ _⟩, ?_, by omega⟩
  intro r hr
  rw [hseq]
  exact h.seq r (mem_of_mem_filter hr)

theorem Inv.exec (h : Inv jsonb base new gone s) (hi : s.txs[i]? = some tx)
    (stmt : Stmt) : ∃ new', Inv jsonb base new' gone (exec jsonb s i tx stmt) := by
  unfold Insert.exec
  split
  · rename_i hph
    split
    · rename_i hfree
      exact ⟨new, h.setPhase hi le_rfl (by simp [hph, Phase.committedRow]) rfl
        trivial fun _ => .inr hfree⟩
    · exact ⟨new, h⟩
  · rename_i hph
    exact ⟨new, h.setPhase hi le_rfl (by simp [hph, Phase.committedRow]) rfl rfl
      fun _ => .inl (by simp [hph, Phase.holdsLock])⟩
  · rename_i bytes prevHash hph
    have hc : tx.phase.committedRow = none := by simp [hph, Phase.committedRow]
    dsimp only
    split
    · exact ⟨new, h⟩
    · split
      · rename_i row hrow
        exact ⟨new, h.setPhase hi (Nat.le_succ _) hc rfl (h.inserted_ok hi hph hrow)
          fun _ => .inl (by simp [hph, Phase.holdsLock])⟩
      · exact ⟨new, h.setPhase hi (Nat.le_succ _) hc rfl trivial
          fun hold => by simp [Phase.holdsLock] at hold⟩
  · rename_i row hph
    exact ⟨new ++ [row], h.commit hi hph⟩
  · exact ⟨new, h⟩
  · rename_i hne
    have hc : tx.phase.committedRow = none := by
      cases hph : tx.phase with
      | committed row => exact absurd hph (hne row)
      | _ => rfl
    exact ⟨new, h.setPhase hi le_rfl hc rfl trivial fun hold => by simp [Phase.holdsLock] at hold⟩
  · exact ⟨new, h⟩

theorem Inv.begin (h : Inv jsonb base new gone s) (he : Faithful jsonb e) :
    Inv jsonb base new gone { s with txs := s.txs ++ [⟨e, .waiting⟩] } := by
  have hnew : ∀ (j : Nat) (b : Tx), (s.txs ++ [⟨e, .waiting⟩])[j]? = some b →
      s.txs[j]? = some b ∨ b = ⟨e, .waiting⟩ := by
    intro j b hj
    rw [List.getElem?_append] at hj
    split at hj
    · exact .inl hj
    · exact .inr (by simpa using mem_of_getElem? hj)
  refine ⟨h.table_eq, h.base_pre, h.verified, h.linked, h.sorted, h.base_lt, ?_, h.seq, ?_, ?_⟩
  · simpa [committedRows, Phase.committedRow] using h.committed
  · intro j b hj
    rcases hnew j b hj with hj | rfl
    · exact h.phases j b hj
    · exact ⟨trivial, he⟩
  · intro j k a b hj hk hold hold' hkey
    rcases hnew j a hj with hj | rfl
    · rcases hnew k b hk with hk | rfl
      · exact h.exclusive j k a b hj hk hold hold' hkey
      · simp [Phase.holdsLock] at hold'
    · simp [Phase.holdsLock] at hold

def Action.Faithful (jsonb : Bytes → Option Bytes) : Action → Prop
  | .begin e now => ∀ e', prepare e now = some e' → Insert.Faithful jsonb e'
  | .exec _ _ => True

theorem Inv.step (h : Inv jsonb base new gone s) {a : Action} (ha : a.Faithful jsonb) :
    ∃ new', Inv jsonb base new' gone (step jsonb s a) := by
  cases a with
  | begin e now =>
    simp only [Insert.step]
    split
    · exact ⟨new, h⟩
    · rename_i e' he'
      exact ⟨new, h.begin (ha e' he')⟩
  | exec i stmt =>
    simp only [Insert.step]
    split
    · exact ⟨new, h⟩
    · rename_i tx hi
      exact h.exec hi stmt

end Steps

def initial (base : List Row) (seq : Nat) : Db := ⟨base, seq, []⟩

theorem selectTenant_of_preChain_nil (h : ∀ r ∈ rows, isPreChain r.toRowRec = true) (t : UUID) :
    chainedRows (selectTenant rows t) = [] := by
  refine filter_eq_nil_iff.mpr fun r hr => ?_
  obtain ⟨row, hrow, rfl⟩ := mem_map.mp hr
  simp [h row (mem_of_mem_filter hrow)]

theorem inv_initial {jsonb : Bytes → Option Bytes} {base : List Row} {seq : Nat}
    (hbase : ∀ r ∈ base, isPreChain r.toRowRec = true ∧ r.chainSeq < seq) :
    Inv jsonb base [] [] (initial base seq) where
  table_eq := by simp [initial]
  base_pre r hr := (hbase r hr).1
  verified := by simp
  linked _ := trivial
  sorted _ := List.Pairwise.nil
  base_lt := by simp
  committed := List.Perm.refl _
  seq r hr := (hbase r hr).2
  phases := by simp [initial]
  exclusive := by simp [initial]

theorem run_inv {jsonb : Bytes → Option Bytes} {base : List Row} {seq : Nat}
    (hbase : ∀ r ∈ base, isPreChain r.toRowRec = true ∧ r.chainSeq < seq)
    {acts : List Action} (hacts : ∀ a ∈ acts, a.Faithful jsonb) :
    ∃ new, Inv jsonb base new [] (run (step jsonb) (initial base seq) acts) := by
  refine run_invariant (I := fun s => ∃ new, Inv jsonb base new [] s)
    (fun s a hs ha => ?_) ⟨[], inv_initial hbase⟩ (guarded_of_forall hacts)
  obtain ⟨new, hs⟩ := hs
  exact hs.step ha

section Selected

variable {jsonb : Bytes → Option Bytes} {base new gone : List Row} {s : Db}

theorem Inv.selectTenant_eq (h : Inv jsonb base new gone s) (t : UUID) :
    selectTenant s.table t = selectTenant base t ++ selectTenant new t := by
  simp [selectTenant, tenantRows, h.table_eq]

theorem Inv.verified_of_mem (h : Inv jsonb base new gone s) {t : UUID} {r : RowRec}
    (hr : r ∈ selectTenant new t) : Verifies r := by
  obtain ⟨row, hrow, rfl⟩ := mem_map.mp hr
  exact (h.verified row (mem_of_mem_filter hrow)).1

theorem Inv.chainedRows_eq (h : Inv jsonb base new gone s) (t : UUID) :
    chainedRows (selectTenant s.table t) = selectTenant new t := by
  have hnew : chainedRows (selectTenant new t) = selectTenant new t :=
    filter_eq_self.mpr fun r hr => by
      simp [(h.verified_of_mem hr).not_preChain]
  have happ : chainedRows (selectTenant base t ++ selectTenant new t) =
      chainedRows (selectTenant base t) ++ chainedRows (selectTenant new t) :=
    filter_append _ _
  rw [h.selectTenant_eq, happ, selectTenant_of_preChain_nil h.base_pre, hnew, nil_append]

theorem Inv.preChainCount_eq (h : Inv jsonb base new gone s) (t : UUID) :
    preChainCount (selectTenant s.table t) = (tenantRows base t).length := by
  have hpre : preChainCount (selectTenant base t) = (tenantRows base t).length := by
    rw [preChainCount, countP_eq_length.mpr]
    · simp [selectTenant]
    · intro r hr
      obtain ⟨row, hrow, rfl⟩ := mem_map.mp hr
      exact h.base_pre row (mem_of_mem_filter hrow)
  have hnew : preChainCount (selectTenant new t) = 0 :=
    countP_eq_zero.mpr fun r hr => by
      simp [(h.verified_of_mem hr).not_preChain]
  rw [h.selectTenant_eq]
  simp only [preChainCount, countP_append] at hpre hnew ⊢
  omega

theorem Inv.verifyChain_eq (h : Inv jsonb base new gone s) {t : UUID}
    (hcoll : CollisionFree (chainedRows (selectTenant s.table t)))
    {rows : List RowRec} {fuel : Nat} (hperm : rows.Perm (selectTenant s.table t))
    (hfuel : rows.length < fuel) (ord : MapOrder) :
    verifyChain ord fuel rows = .ok (clean (tenantRows base t).length) := by
  have hrows := chainedRows_perm hperm
  have hwhole : Whole (selectTenant s.table t) :=
    ⟨selectTenant new t, .of_eq (h.chainedRows_eq t).symm, h.linked t,
      fun _ hr => h.verified_of_mem hr⟩
  have hmeta : ∀ r ∈ chainedRows (selectTenant s.table t), ValidMetadata r.ev := by
    intro r hr
    rw [h.chainedRows_eq] at hr
    exact (h.verified_of_mem hr).validMetadata
  rw [verifyChain_of_whole (fun r hr => hmeta r (hrows.mem_iff.mp hr))
    (collisionFree_of_subset hcoll fun r hr => hrows.mem_iff.mp hr) hfuel
    (hwhole.of_perm hrows.symm) ord]
  rw [← h.preChainCount_eq t, preChainCount, hperm.countP_eq, ← preChainCount]

end Selected

/-- **Concurrent inserts keep every chain whole.** -/
theorem insert_runs_keep_chains (jsonb : Bytes → Option Bytes) (base : List Row)
    (seq : Nat) (hbase : ∀ r ∈ base, isPreChain r.toRowRec = true ∧ r.chainSeq < seq)
    (acts : List Action) (hacts : ∀ a ∈ acts, a.Faithful jsonb) (t : UUID)
    (hcoll : CollisionFree (chainedRows
      (selectTenant (run (step jsonb) (initial base seq) acts).table t))) :
    (∀ rows ord fuel, rows.Perm (selectTenant (run (step jsonb) (initial base seq) acts).table t) →
      rows.length < fuel →
      ∃ v, verifyChain ord fuel rows = .ok v ∧ v.Intact ∧
        v.unverifiable = (tenantRows base t).length) ∧
    ∃ chain : List Row, links.Linked genesisPrevHash (chain.map Row.toRowRec) ∧
      (∀ r ∈ chain, Verifies r.toRowRec) ∧
      (chain.map Row.toRowRec).Perm (chainedRows
        (selectTenant (run (step jsonb) (initial base seq) acts).table t)) ∧
      chain.Perm (tenantRows (committedRows (run (step jsonb) (initial base seq) acts)) t) ∧
      chain.Nodup := by
  obtain ⟨new, hinv⟩ := run_inv hbase hacts
  have hchain := hinv.chainedRows_eq t
  constructor
  · intro rows ord fuel hperm hfuel
    exact ⟨_, hinv.verifyChain_eq hcoll hperm hfuel ord, rfl, rfl⟩
  · refine ⟨tenantRows new t, hinv.linked t,
      fun r hr => (hinv.verified r (mem_of_mem_filter hr)).1,
      .of_eq hchain.symm, hinv.committed.filter _, ?_⟩
    rw [hchain] at hcoll
    exact ((hinv.linked t).nodup (fun r hr => ⟨hr, hinv.verified_of_mem hr⟩)
      (rooted_of_collisionFree hcoll)).of_map _

def keepJson (m : Bytes) : Option Bytes := if (decode m).isSome then some m else none

theorem faithful_keepJson (e : AuditEvent) : Faithful keepJson e := by
  intro stored h
  unfold keepJson at h
  split at h
  · obtain rfl := Option.some.inj h
    rfl
  · cases h

theorem action_faithful_keepJson (a : Action) : a.Faithful keepJson := by
  cases a with
  | begin e now => exact fun e' _ => faithful_keepJson e'
  | exec i stmt => trivial

def twoInserts : List Action :=
  [ .begin (sampleEvent 2) 0, .begin (sampleEvent 3) 0
  , .exec 0 .lock, .exec 1 .lock, .exec 0 .readTip, .exec 1 .readTip
  , .exec 0 (.insert UUID.nil), .exec 0 .commit
  , .exec 1 .lock, .exec 1 .readTip, .exec 1 (.insert UUID.nil), .exec 1 .commit ]

def onePreChain : List Row :=
  [{ ev := sampleEvent 9, prevHash := preChainSentinel, rowHash := preChainSentinel
     chainSeq := 1 }]

theorem insert_runs_keep_chains_two :
    ∃ v, verifyChain ⟨id, List.Perm.refl⟩ 4
        (selectTenant (run (step keepJson) (initial onePreChain 2) twoInserts).table
          (Vector.replicate 16 1)) = .ok v ∧ v.Intact ∧
      v.unverifiable = (tenantRows onePreChain (Vector.replicate 16 1)).length :=
  (insert_runs_keep_chains keepJson onePreChain 2 (by decide) twoInserts
    (fun a _ => action_faithful_keepJson a) (Vector.replicate 16 1)
    (by decide +kernel)).1 _ _ 4 (List.Perm.refl _) (by decide +kernel)

end OciJanus.Audit.Insert
