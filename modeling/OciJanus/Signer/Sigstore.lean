import OciJanus.Verified.KeyedTable
import OciJanus.Verified.Run
import Mathlib.Data.List.Sort

/-!
# The signature store of registry-signer

Each replica has a map of buckets in front of the shared table. A bucket is either empty or taken
for the whole answer.
-/

namespace OciJanus.Signer.Sigstore

open Verified.KeyedTable Verified.Run List

structure Record where
  (tenantID signerID manifestDigest repositoryName signatureDigest keyID sigB64 : String)
  signedAt : Int

structure RecordKey where
  (tenant manifestDigest : String)
  deriving DecidableEq

def Record.key (rec : Record) : RecordKey := ⟨rec.tenantID, rec.manifestDigest⟩

structure Row where
  (tenantID manifestDigest repositoryName signerID keyID signatureDigest : String)
  signedAt : Int
  deriving DecidableEq

def Row.key (row : Row) : RecordKey × String :=
  (⟨row.tenantID, row.manifestDigest⟩, row.signerID)

def Record.row (rec : Record) : Row :=
  ⟨rec.tenantID, rec.manifestDigest, rec.repositoryName, rec.signerID, rec.keyID,
    rec.signatureDigest, rec.signedAt / 1000⟩

def scanRecord (row : Row) : Record :=
  { tenantID := row.tenantID
    signerID := row.signerID
    manifestDigest := row.manifestDigest
    repositoryName := row.repositoryName
    signatureDigest := row.signatureDigest
    keyID := row.keyID
    sigB64 := ""
    signedAt := row.signedAt * 1000 }

@[simp] theorem scanRecord_signerID (row : Row) : (scanRecord row).signerID = row.signerID := rfl

@[simp] theorem scanRecord_row (row : Row) : (scanRecord row).row = row := by
  have hmicro : row.signedAt * 1000 / 1000 = row.signedAt := by omega
  simp [scanRecord, Record.row, hmicro]

abbrev Database := Table Row (RecordKey × String) Row.key

def resigned (rec : Record) (old : Row) : Row :=
  { old with
    keyID := rec.keyID
    signatureDigest := rec.signatureDigest
    signedAt := rec.signedAt / 1000 }

theorem resigned_key (rec : Record) (old : Row) : (resigned rec old).key = old.key := rfl

def Database.store (db : Database) (rec : Record) : Database :=
  db.upsert rec.row (resigned rec) (resigned_key rec)

def Database.rowsOf (db : Database) (k : RecordKey) : List Row :=
  db.rows.filter fun row => row.key.1 = k

def Database.list (db : Database) (k : RecordKey) : List Record :=
  ((db.rowsOf k).insertionSort fun a b => a.signedAt ≤ b.signedAt).map scanRecord

def Database.findRec (db : Database) (k : RecordKey) (signerID : String) : Option Record :=
  (db.get (k, signerID)).map scanRecord

abbrev Cache := RecordKey → List Record

def putRecord (rec : Record) : List Record → List Record
  | [] => [rec]
  | r :: rs => if r.signerID = rec.signerID then rec :: rs else r :: putRecord rec rs

def add (reachable : Bool) (db : Database) (c : Cache) (rec : Record) : Cache × Database :=
  (Function.update c rec.key (putRecord rec (c rec.key)), if reachable then db.store rec else db)

def findIn (bucket : List Record) (signerID : String) : Option Record :=
  bucket.find? fun r => r.signerID = signerID

def findRec (reachable : Bool) (db : Database) (c : Cache) (k : RecordKey)
    (signerID : String) : Option Record × Cache :=
  match findIn (c k) signerID with
  | some r => (some r, c)
  | none =>
    if reachable then
      match db.findRec k signerID with
      | some rec => (some rec, Function.update c k (c k ++ [rec]))
      | none => (none, c)
    else (none, c)

def list (reachable : Bool) (db : Database) (c : Cache) (k : RecordKey) : List Record × Cache :=
  if c k ≠ [] then (c k, c)
  else if reachable then
    (db.list k, if db.list k ≠ [] then Function.update c k (db.list k) else c)
  else ([], c)

structure System (ι : Type*) where
  db : Database
  caches : ι → Cache

inductive Call (ι : Type*) where
  | add (i : ι) (rec : Record)
  | findRec (i : ι) (k : RecordKey) (signerID : String)
  | list (i : ι) (k : RecordKey)

section System

variable {ι : Type*}

def System.step [DecidableEq ι] (s : System ι) : Call ι → System ι
  | .add i rec =>
    let after := add true s.db (s.caches i) rec
    ⟨after.2, Function.update s.caches i after.1⟩
  | .findRec i k g =>
    { s with caches := Function.update s.caches i (findRec true s.db (s.caches i) k g).2 }
  | .list i k =>
    { s with caches := Function.update s.caches i (list true s.db (s.caches i) k).2 }

def System.fresh (db : Database) : System ι := ⟨db, fun _ _ => []⟩

def System.listed (s : System ι) (i : ι) (k : RecordKey) : List Record :=
  (list true s.db (s.caches i) k).1

def System.found (s : System ι) (i : ι) (k : RecordKey) (g : String) : Option Record :=
  (findRec true s.db (s.caches i) k g).1

def System.ListExact (s : System ι) (i : ι) (k : RecordKey) : Prop :=
  ((s.listed i k).map Record.row).Nodup ∧
    ∀ row, row ∈ (s.listed i k).map Record.row ↔ row ∈ s.db.rows ∧ row.key.1 = k

def System.ListsExact (s : System ι) : Prop := ∀ i k, s.ListExact i k

def System.FindsHeld (s : System ι) : Prop :=
  ∀ i k g, (s.found i k g).isSome ↔ (s.db.get (k, g)).isSome

def System.FindsExact (s : System ι) : Prop :=
  ∀ i k g, (s.found i k g).map Record.row = s.db.get (k, g)

def System.Keeps (s : System ι) : Call ι → Prop
  | .list _ _ => True
  | .findRec i k g =>
    (findIn (s.caches i k) g).isSome ∨ s.db.get (k, g) = none ∨
      ∀ row ∈ s.db.rowsOf k, row.signerID = g
  | .add i rec =>
    (∀ row, s.db.get (rec.key, rec.signerID) = some row → row.repositoryName = rec.repositoryName) ∧
    (s.caches i rec.key = [] → ∀ row ∈ s.db.rowsOf rec.key, row.signerID = rec.signerID) ∧
    ∀ j, j ≠ i → s.caches j rec.key = [] ∨ s.db.get (rec.key, rec.signerID) = some rec.row

end System

def view (bucket : List Record) (g : String) : Option Row := (findIn bucket g).map Record.row

structure Bucket (k : RecordKey) (bucket : List Record) : Prop where
  signers : (bucket.map Record.signerID).Nodup
  key : ∀ r ∈ bucket, r.key = k

section Buckets

variable {k : RecordKey} {bucket : List Record} {g : String} {r : Record}

theorem findIn_eq_none_iff : findIn bucket g = none ↔ ∀ r ∈ bucket, r.signerID ≠ g := by
  simp [findIn]

theorem signerID_of_findIn (h : findIn bucket g = some r) : r.signerID = g := by
  simpa using List.find?_some h

theorem mem_of_findIn (h : findIn bucket g = some r) : r ∈ bucket :=
  mem_of_find?_eq_some h

theorem Bucket.findIn_self (hb : Bucket k bucket) (hr : r ∈ bucket) :
    findIn bucket r.signerID = some r := by
  cases hf : findIn bucket r.signerID with
  | none => exact absurd rfl (findIn_eq_none_iff.mp hf r hr)
  | some r' =>
    have hsame := signerID_of_findIn hf
    rw [inj_on_of_nodup_map hb.signers (mem_of_findIn hf) hr hsame]

theorem Bucket.nil (k : RecordKey) : Bucket k [] := ⟨nodup_nil, by simp⟩

variable {row : Row}

theorem Bucket.view_eq_some_iff (hb : Bucket k bucket) :
    view bucket g = some row ↔ row ∈ bucket.map Record.row ∧ row.signerID = g := by
  unfold view
  rw [Option.map_eq_some_iff, mem_map]
  constructor
  · rintro ⟨r, hr, rfl⟩
    exact ⟨⟨r, mem_of_findIn hr, rfl⟩, signerID_of_findIn hr⟩
  · rintro ⟨⟨r, hr, rfl⟩, rfl⟩
    exact ⟨r, hb.findIn_self hr, rfl⟩

theorem Bucket.rows_nodup (hb : Bucket k bucket) : (bucket.map Record.row).Nodup := by
  apply List.Nodup.of_map Row.signerID
  rw [map_map]
  exact hb.signers

theorem mem_rowsOf {db : Database} : row ∈ db.rowsOf k ↔ row ∈ db.rows ∧ row.key.1 = k := by
  simp [Database.rowsOf]

theorem get_eq_some_iff {db : Database} :
    db.get (k, g) = some row ↔ row ∈ db.rowsOf k ∧ row.signerID = g := by
  rw [Table.get_eq_some_iff, mem_rowsOf, and_assoc]
  exact and_congr_right fun _ => Prod.ext_iff

theorem get_eq_none_iff {db : Database} :
    db.get (k, g) = none ↔ ∀ row ∈ db.rowsOf k, row.signerID ≠ g := by
  simp [Option.eq_none_iff_forall_ne_some, get_eq_some_iff]

theorem Bucket.exact_iff (hb : Bucket k bucket) (db : Database) :
    ((bucket.map Record.row).Nodup ∧
      ∀ row, row ∈ bucket.map Record.row ↔ row ∈ db.rows ∧ row.key.1 = k) ↔
      ∀ g, view bucket g = db.get (k, g) := by
  simp only [← mem_rowsOf]
  constructor
  · rintro ⟨_, hrows⟩ g
    ext row
    rw [hb.view_eq_some_iff, get_eq_some_iff, hrows]
  · intro hview
    refine ⟨hb.rows_nodup, fun row => ?_⟩
    have hshown : view bucket row.signerID = some row ↔ db.get (k, row.signerID) = some row := by
      rw [hview]
    simpa only [hb.view_eq_some_iff, get_eq_some_iff, and_true] using hshown

theorem findIn_putRecord (rec : Record) (bucket : List Record) (g : String) :
    findIn (putRecord rec bucket) g = if rec.signerID = g then some rec else findIn bucket g := by
  induction bucket with
  | nil => simp [putRecord, findIn]
  | cons r rs ih =>
    unfold findIn at ih ⊢
    by_cases hr : r.signerID = rec.signerID
    · by_cases hg : rec.signerID = g <;> simp [putRecord, hr, hg]
    · by_cases hg : r.signerID = g
      · have hne : rec.signerID ≠ g := fun h => hr (hg.trans h.symm)
        rw [putRecord, if_neg hr]
        simp [hg, hne]
      · simp [putRecord, hr, hg, ih]

theorem view_putRecord (rec : Record) (bucket : List Record) (g : String) :
    view (putRecord rec bucket) g = if rec.signerID = g then some rec.row else view bucket g := by
  unfold view
  rw [findIn_putRecord]
  split <;> rfl

theorem putRecord_ne_nil (rec : Record) (bucket : List Record) : putRecord rec bucket ≠ [] := by
  cases bucket with
  | nil => simp [putRecord]
  | cons r rs =>
    unfold putRecord
    split <;> simp

theorem mem_putRecord {rec : Record} (h : r ∈ putRecord rec bucket) : r = rec ∨ r ∈ bucket := by
  induction bucket with
  | nil => exact Or.inl (by simpa [putRecord] using h)
  | cons b bs ih =>
    unfold putRecord at h
    split at h
    · rcases mem_cons.mp h with rfl | hr
      · exact Or.inl rfl
      · exact Or.inr (mem_cons_of_mem _ hr)
    · rcases mem_cons.mp h with rfl | hr
      · exact Or.inr mem_cons_self
      · exact (ih hr).imp_right (mem_cons_of_mem _)

theorem signers_putRecord (rec : Record) (bucket : List Record) :
    (putRecord rec bucket).map Record.signerID =
      if rec.signerID ∈ bucket.map Record.signerID then bucket.map Record.signerID
      else bucket.map Record.signerID ++ [rec.signerID] := by
  induction bucket with
  | nil => simp [putRecord]
  | cons r rs ih =>
    by_cases hr : r.signerID = rec.signerID
    · simp [putRecord, hr]
    · rw [putRecord, if_neg hr, map_cons, ih]
      have hne : ¬ rec.signerID = r.signerID := fun h => hr h.symm
      simp only [map_cons, mem_cons, hne, false_or]
      split <;> rfl

theorem Bucket.put {rec : Record} (hb : Bucket rec.key bucket) :
    Bucket rec.key (putRecord rec bucket) where
  signers := by
    rw [signers_putRecord]
    split
    · exact hb.signers
    · next hnew => exact hb.signers.append (nodup_singleton _) (by simpa using hnew)
  key := by
    intro r hr
    rcases mem_putRecord hr with rfl | hold
    · rfl
    · exact hb.key r hold

theorem putRecord_of_miss {rec : Record}
    (hmiss : findIn bucket rec.signerID = none) : putRecord rec bucket = bucket ++ [rec] := by
  induction bucket with
  | nil => rfl
  | cons r rs ih =>
    rw [findIn_eq_none_iff] at hmiss
    have hr : r.signerID ≠ rec.signerID := hmiss r mem_cons_self
    have hrs : findIn rs rec.signerID = none :=
      findIn_eq_none_iff.mpr fun x hx => hmiss x (mem_cons_of_mem _ hx)
    rw [putRecord, if_neg hr, ih hrs]
    rfl

end Buckets

section Table

variable {db : Database} {rec : Record} {k : RecordKey} {g : String}

theorem get_store (db : Database) (rec : Record) (k : RecordKey) (g : String) :
    (db.store rec).get (k, g) = if (rec.key, rec.signerID) = (k, g) then
        some (((db.get (k, g)).map (resigned rec)).getD rec.row)
      else db.get (k, g) :=
  Table.get_upsert

theorem get_store_isSome (h : (db.get (k, g)).isSome) : ((db.store rec).get (k, g)).isSome := by
  rw [get_store]
  split
  · rfl
  · exact h

theorem mem_list {r : Record} : r ∈ db.list k ↔ ∃ row ∈ db.rowsOf k, scanRecord row = r := by
  simp [Database.list, mem_insertionSort]

theorem rowsOf_signers_nodup (db : Database) (k : RecordKey) :
    ((db.rowsOf k).map Row.signerID).Nodup := by
  have hrows : (db.rowsOf k).Nodup := (List.Nodup.of_map _ db.nodup).filter _
  apply hrows.map_on
  intro a ha b hb hsame
  obtain ⟨ha, hka⟩ := mem_rowsOf.mp ha
  obtain ⟨hb, hkb⟩ := mem_rowsOf.mp hb
  exact db.eq_of_key_eq ha hb (Prod.ext (hka.trans hkb.symm) hsame)

theorem Bucket.list (db : Database) (k : RecordKey) : Bucket k (db.list k) where
  signers := by
    have hperm : ((db.list k).map Record.signerID).Perm ((db.rowsOf k).map Row.signerID) := by
      unfold Database.list
      rw [map_map]
      exact (perm_insertionSort _ _).map _
    exact hperm.nodup_iff.mpr (rowsOf_signers_nodup db k)
  key := by
    intro r hr
    obtain ⟨row, hrow, rfl⟩ := mem_list.mp hr
    exact (mem_rowsOf.mp hrow).2

theorem view_list (db : Database) (k : RecordKey) : ∀ g, view (db.list k) g = db.get (k, g) := by
  apply ((Bucket.list db k).exact_iff db).mp
  refine ⟨(Bucket.list db k).rows_nodup, fun row => ?_⟩
  rw [mem_map, ← mem_rowsOf]
  constructor
  · rintro ⟨r, hr, rfl⟩
    obtain ⟨row, hrow, rfl⟩ := mem_list.mp hr
    rwa [scanRecord_row]
  · intro hrow
    exact ⟨scanRecord row, mem_list.mpr ⟨row, hrow, rfl⟩, scanRecord_row row⟩

theorem get_store_self (db : Database) (rec : Record) :
    (db.store rec).get (rec.key, rec.signerID) =
      some (((db.get (rec.key, rec.signerID)).map (resigned rec)).getD rec.row) := by
  rw [get_store, if_pos rfl]

theorem get_store_ne (h : (rec.key, rec.signerID) ≠ (k, g)) :
    (db.store rec).get (k, g) = db.get (k, g) := by
  rw [get_store, if_neg h]

theorem get_store_self_eq_iff :
    (db.store rec).get (rec.key, rec.signerID) = some rec.row ↔
      ∀ row, db.get (rec.key, rec.signerID) = some row →
        row.repositoryName = rec.repositoryName := by
  rw [get_store_self]
  cases hget : db.get (rec.key, rec.signerID) with
  | none => simp
  | some row =>
    have hkey := Table.key_of_get hget
    obtain ⟨hk, hg⟩ := Prod.mk.injEq .. ▸ hkey
    obtain ⟨ht, hd⟩ := RecordKey.mk.injEq .. ▸ hk
    simp [resigned, Record.row, ht, hd, hg]

theorem view_single_iff {row : Row} (hget : db.get (k, row.signerID) = some row) :
    (∀ g, view [scanRecord row] g = db.get (k, g)) ↔
      ∀ row' ∈ db.rowsOf k, row'.signerID = row.signerID := by
  have hview : ∀ g, view [scanRecord row] g = if row.signerID = g then some row else none := by
    intro g
    have hput := view_putRecord (scanRecord row) [] g
    rwa [scanRecord_row] at hput
  constructor
  · intro h row' hrow'
    have hget' := get_eq_some_iff.mpr ⟨hrow', rfl⟩
    rw [← h, hview] at hget'
    split_ifs at hget' with heq
    exact heq.symm
  · intro h g
    rw [hview]
    split
    · next hg => rw [← hg, hget]
    · next hg => exact (get_eq_none_iff.mpr fun row' hrow' => h row' hrow' ▸ hg).symm

end Table

section Calls

variable {ι : Type*} {s : System ι}

def Call.target : Call ι → ι × RecordKey
  | .add i rec => (i, rec.key)
  | .findRec i k _ => (i, k)
  | .list i k => (i, k)

def System.newBucket (s : System ι) : Call ι → List Record
  | .add i rec => putRecord rec (s.caches i rec.key)
  | .findRec i k g =>
    match findIn (s.caches i k) g, s.db.get (k, g) with
    | none, some row => putRecord (scanRecord row) (s.caches i k)
    | _, _ => s.caches i k
  | .list i k => if s.caches i k = [] then s.db.list k else s.caches i k

def System.newDb (s : System ι) : Call ι → Database
  | .add _ rec => s.db.store rec
  | _ => s.db

theorem step_db [DecidableEq ι] (s : System ι) (a : Call ι) : (s.step a).db = s.newDb a := by
  cases a <;> rfl

theorem step_caches [DecidableEq ι] (s : System ι) (a : Call ι) (j : ι) (k : RecordKey) :
    (s.step a).caches j k = if (j, k) = a.target then s.newBucket a else s.caches j k := by
  cases a with
  | add i rec =>
    by_cases hj : j = i
    · subst hj
      by_cases hk : k = rec.key
      · simp [System.step, add, Call.target, System.newBucket, hk]
      · simp [System.step, add, Call.target, hk]
    · simp [System.step, Call.target, hj]
  | findRec i k' g =>
    by_cases hj : j = i
    · subst hj
      cases hf : findIn (s.caches j k') g with
      | some r => simp +contextual [System.step, findRec, Call.target, System.newBucket, hf]
      | none =>
        cases hg : s.db.get (k', g) with
        | none =>
          simp +contextual [System.step, findRec, Database.findRec, Call.target,
            System.newBucket, hf, hg]
        | some row =>
          have hsigner := (get_eq_some_iff.mp hg).2
          have hput : putRecord (scanRecord row) (s.caches j k') =
              s.caches j k' ++ [scanRecord row] :=
            putRecord_of_miss (by rw [scanRecord_signerID, hsigner, hf])
          by_cases hk : k = k'
          · simp [System.step, findRec, Database.findRec, Call.target,
              System.newBucket, hf, hg, hk, hput]
          · simp [System.step, findRec, Database.findRec, Call.target, hf, hg, hk]
    · simp [System.step, Call.target, hj]
  | list i k' =>
    by_cases hj : j = i
    · subst hj
      by_cases hne : s.caches j k' = []
      · by_cases hl : s.db.list k' = []
        · simp +contextual [System.step, list, Call.target, System.newBucket, hne, hl]
        · by_cases hk : k = k'
          · simp [System.step, list, Call.target, System.newBucket, hne, hl, hk]
          · simp [System.step, list, Call.target, hne, hl, hk]
      · simp +contextual [System.step, list, Call.target, System.newBucket, hne]
    · simp [System.step, Call.target, hj]

theorem newBucket_findRec (s : System ι) (i : ι) (k : RecordKey) (g : String) :
    s.newBucket (.findRec i k g) = s.caches i k ∨
      ∃ row, findIn (s.caches i k) g = none ∧ s.db.get (k, g) = some row ∧
        s.newBucket (.findRec i k g) = putRecord (scanRecord row) (s.caches i k) := by
  show (match findIn (s.caches i k) g, s.db.get (k, g) with
    | none, some row => putRecord (scanRecord row) (s.caches i k)
    | _, _ => s.caches i k) = _ ∨ _
  cases hf : findIn (s.caches i k) g with
  | some r => exact Or.inl rfl
  | none =>
    cases hg : s.db.get (k, g) with
    | none => exact Or.inl rfl
    | some row => exact Or.inr ⟨row, rfl, rfl, by simp [System.newBucket, hf, hg]⟩

theorem newBucket_list (s : System ι) (i : ι) (k : RecordKey) :
    s.newBucket (.list i k) = s.caches i k ∨ s.newBucket (.list i k) = s.db.list k := by
  by_cases hempty : s.caches i k = []
  · exact Or.inr (if_pos hempty)
  · exact Or.inl (if_neg hempty)

structure System.WF (s : System ι) : Prop where
  bucket : ∀ i k, Bucket k (s.caches i k)
  held : ∀ i k, ∀ r ∈ s.caches i k, (s.db.get (k, r.signerID)).isSome

theorem System.fresh_wf (db : Database) : (System.fresh (ι := ι) db).WF where
  bucket _ k := Bucket.nil k
  held _ _ _ hr := absurd hr not_mem_nil

theorem System.WF.newBucket (h : s.WF) (a : Call ι) : Bucket a.target.2 (s.newBucket a) := by
  cases a with
  | add i rec => exact (h.bucket i rec.key).put
  | findRec i k g =>
    show Bucket k _
    rcases newBucket_findRec s i k g with hsame | ⟨row, _, hget, hput⟩
    · rw [hsame]
      exact h.bucket i k
    · rw [hput]
      obtain ⟨_, rfl⟩ := mem_rowsOf.mp (get_eq_some_iff.mp hget).1
      exact Bucket.put (h.bucket i (scanRecord row).key)
  | list i k =>
    show Bucket k _
    rcases newBucket_list s i k with hsame | hread
    · rw [hsame]
      exact h.bucket i k
    · rw [hread]
      exact Bucket.list s.db k

theorem System.newDb_isSome {k : RecordKey} {g : String} (a : Call ι)
    (h : (s.db.get (k, g)).isSome) : ((s.newDb a).get (k, g)).isSome := by
  cases a with
  | add i rec => exact get_store_isSome h
  | _ => exact h

theorem System.WF.newBucket_held (h : s.WF) (a : Call ι) :
    ∀ r ∈ s.newBucket a, ((s.newDb a).get (a.target.2, r.signerID)).isSome := by
  intro r hr
  cases a with
  | add i rec =>
    rcases mem_putRecord hr with rfl | hold
    · show ((s.db.store r).get (r.key, r.signerID)).isSome
      rw [get_store, if_pos rfl]
      rfl
    · exact get_store_isSome (h.held i _ r hold)
  | findRec i k g =>
    rcases newBucket_findRec s i k g with hsame | ⟨row, _, hget, hput⟩
    · rw [hsame] at hr
      exact h.held i k r hr
    · rw [hput] at hr
      rcases mem_putRecord hr with rfl | hold
      · show (s.db.get (k, row.signerID)).isSome
        rw [(get_eq_some_iff.mp hget).2, hget]
        rfl
      · exact h.held i k r hold
  | list i k =>
    rcases newBucket_list s i k with hsame | hread
    · rw [hsame] at hr
      exact h.held i k r hr
    · rw [hread] at hr
      obtain ⟨row, hrow, rfl⟩ := mem_list.mp hr
      exact Option.isSome_of_mem (get_eq_some_iff.mpr ⟨hrow, rfl⟩)

theorem System.WF.step [DecidableEq ι] (h : s.WF) (a : Call ι) : (s.step a).WF where
  bucket j k := by
    rw [step_caches]
    split
    · next htarget =>
        rw [show k = a.target.2 from congrArg Prod.snd htarget]
        exact h.newBucket a
    · exact h.bucket j k
  held j k := by
    rw [step_caches, step_db]
    split
    · next htarget =>
        rw [show k = a.target.2 from congrArg Prod.snd htarget]
        exact h.newBucket_held a
    · intro r hr
      exact System.newDb_isSome a (h.held j k r hr)

theorem find_held (h : s.WF) : s.FindsHeld := by
  intro i k g
  unfold System.found findRec
  cases hf : findIn (s.caches i k) g with
  | some r =>
    have hrow := h.held i k r (mem_of_findIn hf)
    rw [signerID_of_findIn hf] at hrow
    simpa using hrow
  | none => cases hg : s.db.get (k, g) <;> simp [Database.findRec, hg]

def System.Agrees (s : System ι) (i : ι) (k : RecordKey) : Prop :=
  s.caches i k = [] ∨ ∀ g, view (s.caches i k) g = s.db.get (k, g)

theorem System.WF.listExact_iff (h : s.WF) (i : ι) (k : RecordKey) :
    s.ListExact i k ↔ s.Agrees i k := by
  unfold System.ListExact System.listed list System.Agrees
  by_cases hempty : s.caches i k = []
  · have hlist := ((Bucket.list s.db k).exact_iff s.db).mpr (view_list s.db k)
    simpa [hempty] using hlist
  · simpa [hempty] using (h.bucket i k).exact_iff s.db

theorem find_exact (h : s.WF) (hlists : s.ListsExact) : s.FindsExact := by
  intro i k g
  unfold System.found findRec
  cases hf : findIn (s.caches i k) g with
  | some r =>
    have hne : s.caches i k ≠ [] := ne_nil_of_mem (mem_of_findIn hf)
    have hview := ((h.listExact_iff i k).mp (hlists i k)).resolve_left hne g
    rw [← hview, view, hf]
  | none => cases hg : s.db.get (k, g) <;> simp [Database.findRec, hg]

theorem step_agrees_iff [DecidableEq ι] (s : System ι) (a : Call ι) :
    (∀ i k, (s.step a).Agrees i k) ↔ (s.newBucket a = [] ∨
        ∀ g, view (s.newBucket a) g = (s.newDb a).get (a.target.2, g)) ∧
      ∀ i k, (i, k) ≠ a.target →
        s.caches i k = [] ∨ ∀ g, view (s.caches i k) g = (s.newDb a).get (k, g) := by
  unfold System.Agrees
  constructor
  · intro h
    constructor
    · have htarget := h a.target.1 a.target.2
      rwa [step_caches, step_db, if_pos rfl] at htarget
    · intro i k hne
      have hother := h i k
      rwa [step_caches, step_db, if_neg hne] at hother
  · rintro ⟨htarget, hother⟩ i k
    rw [step_caches, step_db]
    by_cases hik : (i, k) = a.target
    · rw [if_pos hik]
      have hk : k = a.target.2 := congrArg Prod.snd hik
      rwa [hk]
    · rw [if_neg hik]
      exact hother i k hik

theorem list_step_agrees [DecidableEq ι] (h : ∀ i k, s.Agrees i k) (i : ι) (k : RecordKey) :
    ∀ j k', (s.step (.list i k)).Agrees j k' := by
  apply (step_agrees_iff s _).mpr
  refine ⟨?_, fun j k' _ => h j k'⟩
  show s.newBucket (.list i k) = [] ∨ ∀ g, view (s.newBucket (.list i k)) g = s.db.get (k, g)
  rcases newBucket_list s i k with hsame | hread
  · rw [hsame]
    exact h i k
  · rw [hread]
    exact Or.inr (view_list s.db k)

theorem findRec_step_agrees_iff [DecidableEq ι] (h : ∀ i k, s.Agrees i k) (i : ι)
    (k : RecordKey) (g : String) :
    (∀ j k', (s.step (.findRec i k g)).Agrees j k') ↔ s.Keeps (.findRec i k g) := by
  have hstep : (∀ j k', (s.step (.findRec i k g)).Agrees j k') ↔
      (s.newBucket (.findRec i k g) = [] ∨
        ∀ g', view (s.newBucket (.findRec i k g)) g' = s.db.get (k, g')) :=
    (step_agrees_iff s _).trans (and_iff_left fun j k' _ => h j k')
  rw [hstep]
  show _ ↔ ((findIn (s.caches i k) g).isSome ∨ s.db.get (k, g) = none ∨
    ∀ row ∈ s.db.rowsOf k, row.signerID = g)
  cases hf : findIn (s.caches i k) g with
  | some r =>
    have hsame : s.newBucket (.findRec i k g) = s.caches i k := by
      simp [System.newBucket, hf]
    rw [hsame]
    exact iff_of_true (h i k) (Or.inl rfl)
  | none =>
    cases hg : s.db.get (k, g) with
    | none =>
      have hsame : s.newBucket (.findRec i k g) = s.caches i k := by
        simp [System.newBucket, hf, hg]
      rw [hsame]
      exact iff_of_true (h i k) (Or.inr (Or.inl rfl))
    | some row =>
      -- A bucket that misses a row of the table cannot agree with it,
      -- so this one was empty.
      have hempty : s.caches i k = [] := by
        apply (h i k).resolve_right
        intro hview
        have hmiss := hview g
        rw [view, hf, hg] at hmiss
        cases hmiss
      have hput : s.newBucket (.findRec i k g) = [scanRecord row] := by
        rw [hempty] at hf
        simp [System.newBucket, hf, hg, hempty, putRecord]
      obtain ⟨_, rfl⟩ := get_eq_some_iff.mp hg
      rw [hput]
      simpa using view_single_iff hg

theorem add_target_iff {i : ι} {rec : Record} (h : s.Agrees i rec.key) :
    (∀ g, view (putRecord rec (s.caches i rec.key)) g = (s.db.store rec).get (rec.key, g)) ↔
      (s.db.store rec).get (rec.key, rec.signerID) = some rec.row ∧ (s.caches i rec.key = [] →
          ∀ row ∈ s.db.rowsOf rec.key, row.signerID = rec.signerID) := by
  constructor
  · intro hview
    constructor
    · rw [← hview, view_putRecord, if_pos rfl]
    · intro hempty row hrow
      have hget := get_eq_some_iff.mpr ⟨hrow, rfl⟩
      by_contra hne
      have hne' : ¬ rec.signerID = row.signerID := fun heq => hne heq.symm
      have hshown := hview row.signerID
      rw [hempty, view_putRecord, if_neg hne', get_store_ne (by simpa using hne'), hget] at hshown
      cases hshown
  · rintro ⟨hown, hstart⟩ g
    rw [view_putRecord]
    by_cases hg : rec.signerID = g
    · rw [if_pos hg, ← hg, hown]
    · rw [if_neg hg, get_store_ne (by simpa using hg)]
      rcases h with hempty | hview
      · rw [hempty]
        exact (get_eq_none_iff.mpr fun row hrow => hstart hempty row hrow ▸ hg).symm
      · exact hview g

theorem add_other_iff {j : ι} {rec : Record} (h : s.Agrees j rec.key)
    (hown : (s.db.store rec).get (rec.key, rec.signerID) = some rec.row) :
    (s.caches j rec.key = [] ∨
      ∀ g, view (s.caches j rec.key) g = (s.db.store rec).get (rec.key, g)) ↔
      (s.caches j rec.key = [] ∨ s.db.get (rec.key, rec.signerID) = some rec.row) := by
  rcases h with hempty | hbefore
  · exact iff_of_true (Or.inl hempty) (Or.inl hempty)
  refine or_congr_right ⟨fun hview => ?_, fun hsame g => ?_⟩
  · rw [← hbefore, hview, hown]
  · by_cases hg : rec.signerID = g
    · rw [← hg, hown, hbefore, hsame]
    · rw [get_store_ne (by simpa using hg), hbefore]

theorem add_step_agrees_iff [DecidableEq ι] (h : ∀ i k, s.Agrees i k) (i : ι) (rec : Record) :
    (∀ j k, (s.step (.add i rec)).Agrees j k) ↔ s.Keeps (.add i rec) := by
  rw [step_agrees_iff]
  show ((putRecord rec (s.caches i rec.key) = [] ∨
      ∀ g, view (putRecord rec (s.caches i rec.key)) g = (s.db.store rec).get (rec.key, g)) ∧
      ∀ j k, (j, k) ≠ (i, rec.key) →
        s.caches j k = [] ∨ ∀ g, view (s.caches j k) g = (s.db.store rec).get (k, g)) ↔
    ((∀ row, s.db.get (rec.key, rec.signerID) = some row →
        row.repositoryName = rec.repositoryName) ∧
      (s.caches i rec.key = [] → ∀ row ∈ s.db.rowsOf rec.key, row.signerID = rec.signerID) ∧
      ∀ j, j ≠ i → s.caches j rec.key = [] ∨ s.db.get (rec.key, rec.signerID) = some rec.row)
  rw [or_iff_right (putRecord_ne_nil _ _), add_target_iff (h i rec.key),
    ← get_store_self_eq_iff, and_assoc]
  apply and_congr_right
  intro hown
  apply and_congr_right
  intro _
  constructor
  · intro hothers j hj
    exact (add_other_iff (h j rec.key) hown).mp (hothers j rec.key (by simp [hj]))
  · intro hothers j k hne
    by_cases hk : k = rec.key
    · subst hk
      exact (add_other_iff (h j rec.key) hown).mpr (hothers j (by simpa using hne))
    · -- The table is as it was for the other digests.
      have hsame : ∀ g, (s.db.store rec).get (k, g) = s.db.get (k, g) := fun g =>
        get_store_ne (by simp [Ne.symm hk])
      simpa only [System.Agrees, hsame] using h j k

theorem lists_exact_step_iff [DecidableEq ι] (h : s.WF) (hlists : s.ListsExact) (a : Call ι) :
    (s.step a).ListsExact ↔ s.Keeps a := by
  have hagree : ∀ i k, s.Agrees i k := fun i k => (h.listExact_iff i k).mp (hlists i k)
  have hafter : (s.step a).ListsExact ↔ ∀ i k, (s.step a).Agrees i k :=
    forall₂_congr fun i k => (h.step a).listExact_iff i k
  rw [hafter]
  cases a with
  | add i rec => exact add_step_agrees_iff hagree i rec
  | findRec i k g => exact findRec_step_agrees_iff hagree i k g
  | list i k => exact iff_of_true (list_step_agrees hagree i k) trivial

theorem fresh_listsExact (db : Database) : (System.fresh (ι := ι) db).ListsExact := by
  intro i k
  exact ((System.fresh_wf db).listExact_iff i k).mpr (Or.inl rfl)

theorem run_wf [DecidableEq ι] (db : Database) (calls : List (Call ι)) :
    (run System.step (System.fresh db) calls).WF := by
  apply run_invariant (G := fun _ _ => True) (fun s a hs _ => hs.step a) (System.fresh_wf db)
  exact guarded_of_forall (P := fun _ => True) fun _ _ => trivial

/-- **When the cache in front of the table is transparent.** -/
theorem store_transparent_iff [DecidableEq ι] (db : Database) (calls : List (Call ι)) :
    (∀ soon rest, calls = soon ++ rest → (run System.step (System.fresh db) soon).FindsHeld) ∧
    ((∀ soon rest, calls = soon ++ rest → (run System.step (System.fresh db) soon).ListsExact) ↔
        Guarded System.step System.Keeps (System.fresh db) calls) ∧
    (Guarded System.step System.Keeps (System.fresh db) calls → ∀ soon rest, calls = soon ++ rest →
        (run System.step (System.fresh db) soon).FindsExact) := by
  have hlists : (∀ soon rest, calls = soon ++ rest →
      (run System.step (System.fresh db) soon).ListsExact) ↔
        Guarded System.step System.Keeps (System.fresh db) calls :=
    invariant_along_iff (W := System.WF) (fun s a hs => hs.step a)
      (fun s a hs hl => lists_exact_step_iff hs hl a) (System.fresh_wf db) (fresh_listsExact db)
  refine ⟨fun soon _ _ => find_held (run_wf db soon), hlists, ?_⟩
  intro hG soon rest hsplit
  exact find_exact (run_wf db soon) (hlists.mpr hG soon rest hsplit)

end Calls

def sampleKey : RecordKey := ⟨"acme", "sha256:app"⟩

def signedBy (signerID keyID : String) : Record :=
  { tenantID := "acme"
    signerID := signerID
    manifestDigest := "sha256:app"
    repositoryName := "acme/app"
    signatureDigest := "sha256:sig"
    keyID := keyID
    sigB64 := "c2ln"
    signedAt := 1000 }

def emptyDb : Database := Table.empty

def listedEarly : System Bool :=
  run System.step (System.fresh emptyDb)
    [.add false (signedBy "alice" "k1"), .list true sampleKey, .add false (signedBy "bob" "k2")]

def lookedUp : System Bool :=
  run System.step (System.fresh emptyDb)
    [.add false (signedBy "alice" "k1"), .add false (signedBy "bob" "k2"),
      .findRec true sampleKey "alice"]

def signedAgain : System Bool :=
  run System.step (System.fresh emptyDb)
    [.add false (signedBy "alice" "k1"), .list true sampleKey, .add false (signedBy "alice" "k3")]

theorem list_answers_one_of_two :
    ((listedEarly.listed true sampleKey).map Record.signerID = ["alice"] ∧
      (listedEarly.db.rowsOf sampleKey).map Row.signerID = ["alice", "bob"]) ∧
    ((lookedUp.listed true sampleKey).map Record.signerID = ["alice"] ∧
      (lookedUp.db.rowsOf sampleKey).map Row.signerID = ["alice", "bob"]) ∧
    ((signedAgain.found true sampleKey "alice").map Record.keyID = some "k1" ∧
      (signedAgain.db.get (sampleKey, "alice")).map Row.keyID = some "k3") ∧
    ¬ listedEarly.ListsExact ∧ ¬ lookedUp.ListsExact ∧ ¬ signedAgain.FindsExact := by
  have hearly : (signedBy "bob" "k2").row ∉ (listedEarly.listed true sampleKey).map Record.row := by
    decide +kernel
  have hlooked : (signedBy "bob" "k2").row ∉ (lookedUp.listed true sampleKey).map Record.row := by
    decide +kernel
  have hagain : (signedAgain.found true sampleKey "alice").map Record.row ≠
      signedAgain.db.get (sampleKey, "alice") := by
    decide +kernel
  refine ⟨by decide +kernel, by decide +kernel, by decide +kernel, ?_, ?_, ?_⟩
  · intro hall
    exact hearly (((hall true sampleKey).2 _).mpr ⟨by decide +kernel, rfl⟩)
  · intro hall
    exact hlooked (((hall true sampleKey).2 _).mpr ⟨by decide +kernel, rfl⟩)
  · intro hall
    exact hagain (hall true sampleKey "alice")

end OciJanus.Signer.Sigstore
