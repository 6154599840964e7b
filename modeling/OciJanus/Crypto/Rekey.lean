import OciJanus.Verified.Hex
import OciJanus.Verified.KeyedTable

/-!
# Rotating a key-encryption key

AES-256-GCM is a parameter (`Gcm`): opening undoes sealing. `Faults` is what the database and the
random source do.
-/

namespace OciJanus.Crypto.Rekey

open Verified.Hex Verified.Sha256 List
open Verified.KeyedTable (Table)

structure Gcm where
  sealed : Bytes → Bytes → Bytes → Bytes
  opened : Bytes → Bytes → Bytes → Option Bytes
  opened_sealed : ∀ key nonce plain, opened key nonce (sealed key nonce plain) = some plain
  length_sealed : ∀ key nonce plain, (sealed key nonce plain).length = plain.length + 16

def version : UInt8 := 1

abbrev Nonce := { n : Bytes // n.length = 12 }

variable (g : Gcm)

def encrypt (key : Bytes) (nonce : Nonce) (plain : Bytes) : Option Bytes :=
  if key.length ≠ 32 then none
  else some (version :: nonce.1 ++ g.sealed key nonce.1 plain)

def decryptVersioned (key ciphertext : Bytes) : Option Bytes :=
  if 29 ≤ ciphertext.length ∧ ciphertext.head? = some version then
    g.opened key ((ciphertext.drop 1).take 12) (ciphertext.drop 13)
  else none

def decrypt (key ciphertext : Bytes) : Option Bytes :=
  if key.length ≠ 32 then none
  else if ciphertext.length < 12 then none
  else
    match decryptVersioned g key ciphertext with
    | some plain => some plain
    | none => g.opened key (ciphertext.take 12) (ciphertext.drop 12)

theorem decrypt_encrypt {g : Gcm} {key plain ciphertext : Bytes} {nonce : Nonce}
    (h : encrypt g key nonce plain = some ciphertext) : decrypt g key ciphertext = some plain := by
  unfold encrypt at h
  split_ifs at h with hkey
  cases h
  obtain ⟨nonce, hnonce⟩ := nonce
  have hlength : (version :: nonce ++ g.sealed key nonce plain).length = 29 + plain.length := by
    rw [length_append, length_cons, g.length_sealed, hnonce]
    omega
  have htake : ((version :: nonce ++ g.sealed key nonce plain).drop 1).take 12 = nonce :=
    take_left' hnonce
  have hdrop : (version :: nonce ++ g.sealed key nonce plain).drop 13 =
      g.sealed key nonce plain := drop_left' (by rw [length_cons, hnonce])
  have hversioned : decryptVersioned g key (version :: nonce ++ g.sealed key nonce plain) =
      some plain := by
    unfold decryptVersioned
    rw [if_pos ⟨by omega, rfl⟩, htake, hdrop, g.opened_sealed]
  show decrypt g key (version :: nonce ++ g.sealed key nonce plain) = some plain
  unfold decrypt
  rw [if_neg hkey, if_neg (by omega), hversioned]

theorem encrypt_isSome {g : Gcm} {key : Bytes} (h : key.length = 32) (nonce : Nonce)
    (plain : Bytes) : (encrypt g key nonce plain).isSome := by
  unfold encrypt
  rw [if_neg (fun hne => hne h)]
  rfl

inductive Value where
  | bytea (v : Option Bytes)
  | hexText (v : Option String)
  deriving DecidableEq

structure Cell where
  column : String
  value : Value

structure Row where
  pk : String
  kekVersion : Option Int
  cells : List Cell

abbrev Rows := Table Row String (·.pk)

structure TableSpec where
  name : String
  optional : Bool
  rows : Option Rows

namespace Value

def isNull : Value → Bool
  | .bytea v => v.isNone
  | .hexText v => v.isNone

def bytes : Value → Option Bytes
  | .bytea v => some (v.getD [])
  | .hexText v => hexDecode (v.getD "")

def write (ciphertext : Bytes) : Value → Value
  | .bytea _ => .bytea (some ciphertext)
  | .hexText _ => .hexText (some (hexEncode ciphertext))

theorem bytes_write (ciphertext : Bytes) (v : Value) :
    (v.write ciphertext).bytes = some ciphertext := by
  cases v with
  | bytea v => rfl
  | hexText v => exact hexDecode_hexEncode ciphertext

def IsEmpty (v : Value) : Prop := v.bytes = some []

instance (v : Value) : Decidable v.IsEmpty := by
  unfold IsEmpty
  infer_instance

theorem isEmpty_of_isNull {v : Value} (h : v.isNull = true) : v.IsEmpty := by
  cases v with
  | bytea v =>
    cases v with
    | none => rfl
    | some b => cases h
  | hexText v =>
    cases v with
    | none => rfl
    | some s => cases h

def openUnder (key : Bytes) (v : Value) : Option Bytes := v.bytes.bind (decrypt g key)

end Value

inductive Mode where
  | rotate
  | dryRun
  | verify
  deriving DecidableEq

structure Keys where
  (oldKey newKey : Bytes)

structure SweepOpts extends Keys where
  mode : Mode
  toVersion : Int

inductive CommitFate where
  | ok
  | failed
  | lost

structure Faults where
  exists? : Bool
  read : Bool
  rand : String → String → Option Nonce
  update : String → Bool
  commit : CommitFate

inductive SweepError where
  | query (table : String)
  | scan (table : String)
  | notHex (table column pk : String)
  | rekey (table column pk : String)
  | update (table : String)
  | commit (table : String)
  deriving DecidableEq

structure Report where
  (rowsRotated rowsOnOldKey : Nat)
  perTable : String → Option Nat

def rekey (oldKey newKey : Bytes) (nonce : Option Nonce) (ciphertext : Bytes) : Option Bytes :=
  (decrypt g oldKey ciphertext).bind fun plain => nonce.bind fun n => encrypt g newKey n plain

def onNewKey (newKey ciphertext : Bytes) : Bool := (decrypt g newKey ciphertext).isSome

def Row.selected (r : Row) : Bool := r.cells.any fun c => !c.value.isNull

def Row.scannable (r : Row) : Bool := r.cells.all fun c => c.value ≠ .hexText none

section Sweep

variable (keys : Keys) (opts : SweepOpts)

def rotateCell (table pk : String) (nonce : Option Nonce) (c : Cell) :
    Except SweepError (Option Bytes) :=
  match c.value.bytes with
  | none => .error (.notHex table c.column pk)
  | some ciphertext =>
    if ciphertext = [] then .ok none
    else if onNewKey g keys.newKey ciphertext then .ok none
    else
      match rekey g keys.oldKey keys.newKey nonce ciphertext with
      | none => .error (.rekey table c.column pk)
      | some new => .ok (some new)

def rotateCells (table pk : String) (rand : String → Option Nonce) :
    List Cell → Except SweepError (List (Option Bytes))
  | [] => .ok []
  | c :: cs =>
    match rotateCell g keys table pk (rand c.column) c with
    | .error e => .error e
    | .ok new =>
      match rotateCells table pk rand cs with
      | .error e => .error e
      | .ok news => .ok (new :: news)

structure Update where
  pk : String
  newVals : List (Option Bytes)

def collect (table : String) (rand : String → String → Option Nonce) :
    List Row → Except SweepError (List Update)
  | [] => .ok []
  | r :: rs =>
    if !r.selected then collect table rand rs
    else if !r.scannable then .error (.scan table)
    else
      match rotateCells g keys table r.pk (rand r.pk) r.cells with
      | .error e => .error e
      | .ok newVals =>
        match collect table rand rs with
        | .error e => .error e
        | .ok updates =>
          .ok (if newVals.any Option.isSome then ⟨r.pk, newVals⟩ :: updates else updates)

def Cell.update (c : Cell) : Option Bytes → Cell
  | none => c
  | some ciphertext => { c with value := c.value.write ciphertext }

def Row.update (toVersion : Int) (newVals : List (Option Bytes)) (r : Row) : Row :=
  { r with kekVersion := some toVersion, cells := List.zipWith Cell.update r.cells newVals }

def applyUpdate (rows : Rows) (u : Update) : Rows :=
  rows.modify u.pk (Row.update opts.toVersion u.newVals) fun _ => rfl

def rotateTable (faults : Faults) (t : TableSpec) : TableSpec × Except SweepError Nat :=
  if faults.read then (t, .error (.query t.name))
  else
    match t.rows with
    | none => (t, .error (.query t.name))
    | some rows =>
      match collect g opts.toKeys t.name faults.rand rows.rows with
      | .error e => (t, .error e)
      | .ok updates =>
        if opts.mode = .dryRun then (t, .ok updates.length)
        else if updates.any fun u => faults.update u.pk then (t, .error (.update t.name))
        else
          let written := { t with rows := some (updates.foldl (applyUpdate opts) rows) }
          match faults.commit with
          | .ok => (written, .ok updates.length)
          | .failed => (t, .error (.commit t.name))
          | .lost => (written, .error (.commit t.name))

def onOldKey (c : Cell) : Bool :=
  match c.value.bytes with
  | none => true
  | some ciphertext => ciphertext ≠ [] && !onNewKey g keys.newKey ciphertext

def countOnOldKey (table : String) : List Row → Except SweepError Nat
  | [] => .ok 0
  | r :: rs =>
    if !r.selected then countOnOldKey table rs
    else if !r.scannable then .error (.scan table)
    else
      match countOnOldKey table rs with
      | .error e => .error e
      | .ok n => .ok (if r.cells.any (onOldKey g keys) then n + 1 else n)

def verifyTable (faults : Faults) (t : TableSpec) : Except SweepError Nat :=
  if faults.read then .error (.query t.name)
  else
    match t.rows with
    | none => .error (.query t.name)
    | some rows => countOnOldKey g opts.toKeys t.name rows.rows

def sweepTable (faults : Faults) (t : TableSpec) : TableSpec × Except SweepError Nat :=
  match opts.mode with
  | .verify => (t, verifyTable g opts faults t)
  | _ => rotateTable g opts faults t

def Report.add (mode : Mode) (table : String) (n : Nat) (rep : Report) : Report :=
  match mode with
  | .verify =>
    { rep with
      rowsOnOldKey := rep.rowsOnOldKey + n
      perTable := Function.update rep.perTable table (some n) }
  | _ =>
    { rep with
      rowsRotated := rep.rowsRotated + n
      perTable := Function.update rep.perTable table (some n) }

structure Swept where
  tables : List TableSpec
  report : Report
  error : Option SweepError

def sweepFrom (faults : String → Faults) : Report → List TableSpec → Swept
  | rep, [] => ⟨[], rep, none⟩
  | rep, t :: ts =>
    if t.optional && (faults t.name).exists? then ⟨t :: ts, rep, some (.query t.name)⟩
    else if t.optional && t.rows.isNone then
      let rest := sweepFrom faults rep ts
      { rest with tables := t :: rest.tables }
    else
      match sweepTable g opts (faults t.name) t with
      | (t', .error e) => ⟨t' :: ts, rep, some e⟩
      | (t', .ok n) =>
        let rest := sweepFrom faults (rep.add opts.mode t.name n) ts
        { rest with tables := t' :: rest.tables }

def sweep (faults : String → Faults) (tables : List TableSpec) : Swept :=
  sweepFrom g opts faults ⟨0, 0, fun _ => none⟩ tables

end Sweep

section Cells

variable {g : Gcm} {keys : Keys}

def Done (g : Gcm) (keys : Keys) (v : Value) : Prop :=
  v.IsEmpty ∨ (v.openUnder g keys.newKey).isSome

def Readable (g : Gcm) (keys : Keys) (v : Value) : Prop :=
  Done g keys v ∨ (v.openUnder g keys.oldKey).isSome

deriving instance Decidable for Done

def Stepped (g : Gcm) (keys : Keys) (v v' : Value) : Prop :=
  v' = v ∨ v.openUnder g keys.newKey = none ∧
    ∃ plain, v.openUnder g keys.oldKey = some plain ∧ v'.openUnder g keys.newKey = some plain

theorem Stepped.trans {v v' v'' : Value} (h : Stepped g keys v v') (h' : Stepped g keys v' v'') :
    Stepped g keys v v'' := by
  rcases h with rfl | ⟨hnew, plain, hold, hopen⟩
  · exact h'
  · rcases h' with rfl | ⟨hnone, _⟩
    · exact Or.inr ⟨hnew, plain, hold, hopen⟩
    · rw [hopen] at hnone
      cases hnone

def plaintext (g : Gcm) (keys : Keys) (v : Value) : Option Bytes :=
  (v.openUnder g keys.newKey).or (v.openUnder g keys.oldKey)

def Lossless (g : Gcm) (keys : Keys) (v v' : Value) : Prop :=
  (v.IsEmpty ∧ v' = v) ∨
    ∃ plain, plaintext g keys v = some plain ∧ v'.openUnder g keys.newKey = some plain

theorem Stepped.lossless {v v' : Value} (h : Stepped g keys v v') (hdone : Done g keys v') :
    Lossless g keys v v' := by
  rcases h with rfl | ⟨hnew, plain, hold, hopen⟩
  · rcases hdone with hempty | hopen
    · exact Or.inl ⟨hempty, rfl⟩
    · obtain ⟨plain, hopen⟩ := Option.isSome_iff_exists.mp hopen
      refine Or.inr ⟨plain, ?_, hopen⟩
      rw [plaintext, hopen, Option.some_or]
  · refine Or.inr ⟨plain, ?_, hopen⟩
    rw [plaintext, hnew, Option.none_or, hold]

variable {table pk : String} {nonce : Option Nonce} {c : Cell} {new : Option Bytes}

theorem rotateCell_ok_iff : rotateCell g keys table pk nonce c = .ok new ↔
    Done g keys c.value ∧ new = none ∨
      ¬ Done g keys c.value ∧ ∃ plain n out, c.value.openUnder g keys.oldKey = some plain ∧
        nonce = some n ∧ encrypt g keys.newKey n plain = some out ∧ new = some out := by
  unfold rotateCell Done Value.IsEmpty Value.openUnder
  cases c.value.bytes with
  | none => simp
  | some ciphertext =>
    by_cases hnil : ciphertext = []
    · simpa [hnil] using eq_comm
    by_cases hnew : (decrypt g keys.newKey ciphertext).isSome = true
    · simpa [hnil, onNewKey, hnew] using eq_comm
    · simp only [hnil, onNewKey, hnew, Option.some.injEq, Option.bind_some, rekey]
      cases decrypt g keys.oldKey ciphertext with
      | none => simp
      | some plain => cases nonce with
        | none => simp
        | some n => cases hencrypt : encrypt g keys.newKey n plain <;> simp [hencrypt, eq_comm]

theorem rotateCell_none (h : rotateCell g keys table pk nonce c = .ok none) :
    Done g keys c.value := by
  rcases rotateCell_ok_iff.mp h with ⟨hdone, _⟩ | ⟨_, _, _, _, _, _, _, hsome⟩
  · exact hdone
  · cases hsome

theorem rotateCell_some {ciphertext : Bytes}
    (h : rotateCell g keys table pk nonce c = .ok (some ciphertext)) :
    c.value.openUnder g keys.newKey = none ∧ ∃ plain, c.value.openUnder g keys.oldKey = some plain ∧
        (c.value.write ciphertext).openUnder g keys.newKey = some plain := by
  rcases rotateCell_ok_iff.mp h with ⟨_, hnone⟩ | ⟨hdone, plain, n, out, hold, _, hencrypt, hout⟩
  · cases hnone
  · cases hout
    refine ⟨Option.not_isSome_iff_eq_none.mp fun hopen => hdone (Or.inr hopen), plain, hold, ?_⟩
    rw [Value.openUnder, Value.bytes_write]
    exact decrypt_encrypt hencrypt

theorem readable_of_rotateCell (h : rotateCell g keys table pk nonce c = .ok new) :
    Readable g keys c.value := by
  rcases rotateCell_ok_iff.mp h with ⟨hdone, _⟩ | ⟨_, plain, _, _, hold, _⟩
  · exact Or.inl hdone
  · exact Or.inr (Option.isSome_of_eq_some hold)

theorem eq_none_of_done (h : rotateCell g keys table pk nonce c = .ok new)
    (hdone : Done g keys c.value) : new = none := by
  rcases rotateCell_ok_iff.mp h with ⟨_, hnone⟩ | ⟨hnot, _⟩
  · exact hnone
  · exact absurd hdone hnot

theorem rotateCell_of_readable (table pk : String) (hkey : keys.newKey.length = 32) (n : Nonce)
    (h : Readable g keys c.value) : ∃ new, rotateCell g keys table pk (some n) c = .ok new := by
  by_cases hdone : Done g keys c.value
  · exact ⟨none, rotateCell_ok_iff.mpr (Or.inl ⟨hdone, rfl⟩)⟩
  · obtain ⟨plain, hplain⟩ := Option.isSome_iff_exists.mp (h.resolve_left hdone)
    obtain ⟨out, hout⟩ := Option.isSome_iff_exists.mp (encrypt_isSome (g := g) hkey n plain)
    exact ⟨some out, rotateCell_ok_iff.mpr (Or.inr ⟨hdone, plain, n, out, hplain, rfl, hout, rfl⟩)⟩

theorem onOldKey_eq_false_iff : onOldKey g keys c = false ↔ Done g keys c.value := by
  unfold onOldKey Done Value.IsEmpty Value.openUnder
  cases hbytes : c.value.bytes with
  | none => simp
  | some ciphertext =>
    by_cases hnil : ciphertext = []
    · simp [hnil]
    · simp [hnil, onNewKey]

end Cells

section Related

variable {α : Type*} {R S T : α → α → Prop}

theorem exists_of_forall₂ {β : Type*} {R : α → β → Prop} {xs : List α} {ys : List β}
    (h : List.Forall₂ R xs ys) {x : α} (hx : x ∈ xs) : ∃ y ∈ ys, R x y := by
  induction h with
  | nil => cases hx
  | @cons a b xs ys hab _ ih =>
    rcases mem_cons.mp hx with rfl | hx
    · exact ⟨b, mem_cons_self, hab⟩
    · obtain ⟨y, hy, hxy⟩ := ih hx
      exact ⟨y, mem_cons_of_mem _ hy, hxy⟩

theorem forall₂_trans (hRST : ∀ a b c, R a b → S b c → T a c) {xs ys zs : List α}
    (h : List.Forall₂ R xs ys) (h' : List.Forall₂ S ys zs) : List.Forall₂ T xs zs := by
  induction h generalizing zs with
  | nil =>
    cases h'
    exact .nil
  | cons hab _ ih =>
    cases h' with
    | cons hbc h' => exact .cons (hRST _ _ _ hab hbc) (ih h')

end Related

def Row.Rel (R : Value → Value → Prop) (r r' : Row) : Prop :=
  r'.pk = r.pk ∧
    List.Forall₂ (fun c c' : Cell => c'.column = c.column ∧ R c.value c'.value) r.cells r'.cells

def Row.Scans (r : Row) : Prop := r.selected = true → r.scannable = true

section Rows

variable {g : Gcm} {keys : Keys} {table : String} {rand : String → String → Option Nonce}

theorem rotateCells_ok_iff {pk : String} {rand : String → Option Nonce} {cells : List Cell}
    {news : List (Option Bytes)} :
    rotateCells g keys table pk rand cells = .ok news ↔
      List.Forall₂ (fun c new => rotateCell g keys table pk (rand c.column) c = .ok new) cells
        news := by
  induction cells generalizing news with
  | nil =>
    rw [forall₂_nil_left_iff, rotateCells, Except.ok.injEq]
    exact eq_comm
  | cons c cells ih =>
    simp only [rotateCells, forall₂_cons_left_iff, ← ih]
    cases rotateCell g keys table pk (rand c.column) c with
    | error e => simp
    | ok new => cases rotateCells g keys table pk rand cells <;> simp [eq_comm]

def Rotatable (g : Gcm) (keys : Keys) (table : String) (rand : String → String → Option Nonce)
    (r : Row) : Prop :=
  r.selected = true → r.scannable = true ∧
    ∃ news, rotateCells g keys table r.pk (rand r.pk) r.cells = .ok news

def updateOf (g : Gcm) (keys : Keys) (table : String) (rand : String → String → Option Nonce)
    (r : Row) : Option Update :=
  if r.selected then
    match rotateCells g keys table r.pk (rand r.pk) r.cells with
    | .error _ => none
    | .ok news => if news.any Option.isSome then some ⟨r.pk, news⟩ else none
  else none

variable {r : Row} {rows : List Row} {updates : List Update}

theorem collect_cons_ok_iff :
    collect g keys table rand (r :: rows) = .ok updates ↔
      Rotatable g keys table rand r ∧ ∃ rest, collect g keys table rand rows = .ok rest ∧
        updates = (updateOf g keys table rand r).toList ++ rest := by
  unfold Rotatable updateOf
  rw [collect]
  cases r.selected with
  | false => simp
  | true =>
    cases r.scannable with
    | false => simp
    | true =>
      cases rotateCells g keys table r.pk (rand r.pk) r.cells with
      | error e => simp
      | ok news =>
        cases collect g keys table rand rows with
        | error e => simp
        | ok rest =>
          by_cases hany : ∃ new ∈ news, new.isSome = true <;> simpa [hany] using eq_comm

theorem collect_ok_iff :
    collect g keys table rand rows = .ok updates ↔ (∀ r ∈ rows, Rotatable g keys table rand r) ∧
        updates = rows.filterMap (updateOf g keys table rand) := by
  induction rows generalizing updates with
  | nil => simp [collect, eq_comm]
  | cons r rows ih =>
    rw [collect_cons_ok_iff, forall_mem_cons, and_assoc]
    refine and_congr_right fun _ => ?_
    simp only [ih]
    cases hupdate : updateOf g keys table rand r <;> simp [hupdate]

def rotated (g : Gcm) (keys : Keys) (table : String) (rand : String → String → Option Nonce)
    (toVersion : Int) (r : Row) : Row :=
  match updateOf g keys table rand r with
  | none => r
  | some u => r.update toVersion u.newVals

theorem updateOf_pk {u : Update} (h : updateOf g keys table rand r = some u) : u.pk = r.pk := by
  unfold updateOf at h
  split_ifs at h
  split at h
  · cases h
  · split_ifs at h
    cases h
    rfl

def applyTo (toVersion : Int) (r : Row) (u : Update) : Row :=
  if r.pk = u.pk then r.update toVersion u.newVals else r

theorem rows_foldl_applyUpdate (opts : SweepOpts) (updates : List Update) (rows : Rows) :
    (updates.foldl (applyUpdate opts) rows).rows =
      rows.rows.map fun r => updates.foldl (applyTo opts.toVersion) r := by
  induction updates generalizing rows with
  | nil => simp
  | cons u updates ih =>
    rw [foldl_cons, ih]
    show (rows.rows.map _).map _ = _
    rw [map_map]
    rfl

variable {toVersion : Int}

theorem foldl_applyTo_of_notMem
    (h : ∀ u ∈ updates, u.pk ≠ r.pk) : updates.foldl (applyTo toVersion) r = r := by
  induction updates with
  | nil => rfl
  | cons u updates ih =>
    rw [forall_mem_cons] at h
    rw [foldl_cons, applyTo, if_neg (Ne.symm h.1)]
    exact ih h.2

theorem foldl_updateOf (hnodup : (rows.map (·.pk)).Nodup) (hr : r ∈ rows) :
    (rows.filterMap (updateOf g keys table rand)).foldl (applyTo toVersion) r =
      rotated g keys table rand toVersion r := by
  have hothers : ∀ rest : List Row, r.pk ∉ rest.map (·.pk) → ∀ r' : Row, r'.pk = r.pk →
      (rest.filterMap (updateOf g keys table rand)).foldl (applyTo toVersion) r' = r' := by
    intro rest hnot r' hpk
    refine foldl_applyTo_of_notMem fun u hu hkey => hnot ?_
    obtain ⟨q, hq, hu⟩ := mem_filterMap.mp hu
    exact mem_map.mpr ⟨q, hq, (updateOf_pk hu).symm.trans (hkey.trans hpk)⟩
  induction rows with
  | nil => cases hr
  | cons q rows ih =>
    rw [map_cons, nodup_cons] at hnodup
    rw [filterMap_cons]
    rcases mem_cons.mp hr with rfl | hr
    · unfold rotated
      cases hupdate : updateOf g keys table rand r with
      | none => exact hothers rows hnodup.1 r rfl
      | some u =>
        dsimp only
        rw [foldl_cons, applyTo, if_pos (updateOf_pk hupdate).symm]
        exact hothers rows hnodup.1 _ rfl
    · have hne : q.pk ≠ r.pk := fun h => hnodup.1 (h ▸ mem_map.mpr ⟨r, hr, rfl⟩)
      cases hupdate : updateOf g keys table rand q with
      | none => exact ih hnodup.2 hr
      | some u =>
        dsimp only
        rw [foldl_cons, applyTo, if_neg]
        · exact ih hnodup.2 hr
        · rw [updateOf_pk hupdate]
          exact Ne.symm hne

theorem rows_rotated (opts : SweepOpts) (rows : Rows) :
    ((rows.rows.filterMap (updateOf g keys table rand)).foldl (applyUpdate opts) rows).rows =
      rows.rows.map (rotated g keys table rand opts.toVersion) := by
  rw [rows_foldl_applyUpdate]
  exact map_congr_left fun r hr => foldl_updateOf rows.nodup hr

theorem Row.rel_of_all {R : Value → Value → Prop}
    (h : ∀ c ∈ r.cells, R c.value c.value) : r.Rel R r :=
  ⟨rfl, forall₂_same.mpr fun c hc => ⟨rfl, h c hc⟩⟩

theorem done_of_not_selected (h : r.selected = false) : ∀ c ∈ r.cells, Done g keys c.value := by
  intro c hc
  have hnull := any_eq_false.mp h c hc
  refine Or.inl (Value.isEmpty_of_isNull ?_)
  simpa using hnull

theorem rotated_rel (h : Rotatable g keys table rand r) :
    r.Rel (Stepped g keys) (rotated g keys table rand toVersion r) ∧
      ∀ c ∈ (rotated g keys table rand toVersion r).cells, Done g keys c.value := by
  have hsame : r.Rel (Stepped g keys) r := Row.rel_of_all fun _ _ => Or.inl rfl
  unfold rotated updateOf
  cases hselected : r.selected with
  | false => exact ⟨hsame, done_of_not_selected hselected⟩
  | true =>
    obtain ⟨_, news, hnews⟩ := h hselected
    rw [hnews]
    have hcells := rotateCells_ok_iff.mp hnews
    simp only [if_true]
    cases hany : news.any Option.isSome with
    | true =>
      simp only [if_true]
      unfold Row.Rel Row.update
      simp only [true_and]
      clear hnews hany hsame hselected h
      generalize r.cells = cells at hcells
      induction hcells with
      | nil => exact ⟨.nil, fun _ hc => (by cases hc)⟩
      | @cons c new cells news hcell _ ih =>
        have hstep : (c.update new).column = c.column ∧
            Stepped g keys c.value (c.update new).value ∧ Done g keys (c.update new).value := by
          cases new with
          | none => exact ⟨rfl, Or.inl rfl, rotateCell_none hcell⟩
          | some ciphertext =>
            obtain ⟨hnew, plain, hold, hopen⟩ := rotateCell_some hcell
            refine ⟨rfl, Or.inr ⟨hnew, plain, hold, hopen⟩, Or.inr ?_⟩
            rw [show (c.update (some ciphertext)).value = c.value.write ciphertext from rfl, hopen]
            rfl
        refine ⟨.cons ⟨hstep.1, hstep.2.1⟩ ih.1, ?_⟩
        intro c' hc'
        rcases mem_cons.mp hc' with rfl | hc'
        · exact hstep.2.2
        · exact ih.2 c' hc'
    | false =>
      simp only [Bool.false_eq_true, if_false]
      refine ⟨hsame, fun c hc => ?_⟩
      obtain ⟨new, hnew, hcell⟩ := exists_of_forall₂ hcells hc
      have hnone : new = none := by
        have hnot := any_eq_false.mp hany new hnew
        simpa using hnot
      rw [hnone] at hcell
      exact rotateCell_none hcell

end Rows

def TableSpec.Rel (R : Value → Value → Prop) (t t' : TableSpec) : Prop :=
  t'.name = t.name ∧ t'.optional = t.optional ∧
    Option.Rel (fun rows rows' : Rows => List.Forall₂ (Row.Rel R) rows.rows rows'.rows) t.rows
      t'.rows

def TableSpec.All (P : Value → Prop) (t : TableSpec) : Prop :=
  ∀ rows ∈ t.rows, ∀ r ∈ rows.rows, ∀ c ∈ r.cells, P c.value

section Tables

variable {g : Gcm} {opts : SweepOpts}

variable {t : TableSpec} {r : Row}

theorem TableSpec.rel_of_all {R : Value → Value → Prop} (h : t.All fun v => R v v) : t.Rel R t := by
  refine ⟨rfl, rfl, ?_⟩
  unfold TableSpec.All at h
  generalize t.rows = rows at h
  cases rows with
  | none => exact .none
  | some rows => exact .some (forall₂_same.mpr fun r hr => Row.rel_of_all (h rows rfl r hr))

theorem TableSpec.rel_stepped (t : TableSpec) : t.Rel (Stepped g opts.toKeys) t :=
  t.rel_of_all fun _ _ _ _ _ _ => Or.inl rfl

theorem Row.Rel.trans {R S T : Value → Value → Prop} (hRST : ∀ a b c, R a b → S b c → T a c)
    {r' r'' : Row} (h : r.Rel R r') (h' : r'.Rel S r'') : r.Rel T r'' :=
  ⟨h'.1.trans h.1,
    forall₂_trans (fun _ _ _ hab hbc => ⟨hbc.1.trans hab.1, hRST _ _ _ hab.2 hbc.2⟩) h.2 h'.2⟩

theorem TableSpec.Rel.trans {R S T : Value → Value → Prop}
    (hRST : ∀ a b c, R a b → S b c → T a c) {t' t'' : TableSpec} (h : t.Rel R t')
    (h' : t'.Rel S t'') : t.Rel T t'' := by
  refine ⟨h'.1.trans h.1, h'.2.1.trans h.2.1, ?_⟩
  have hrows := h.2.2
  have hrows' := h'.2.2
  generalize t.rows = rows at hrows
  generalize t'.rows = rows' at hrows hrows'
  generalize t''.rows = rows'' at hrows'
  cases hrows with
  | none =>
    cases hrows'
    exact .none
  | some hrel =>
    cases hrows' with
    | some hrel' =>
      exact .some (forall₂_trans (fun _ _ _ hab hbc => hab.trans hRST hbc) hrel hrel')

theorem TableSpec.Rel.imp {R S : Value → Value → Prop} {P : Value → Prop} {t' : TableSpec}
    (h : t.Rel R t') (hP : t'.All P) (hRS : ∀ v v', R v v' → P v' → S v v') : t.Rel S t' := by
  have hsame : t'.Rel (fun v v' => v = v' ∧ P v') t' :=
    TableSpec.rel_of_all fun rows hrows r hr c hc => ⟨rfl, hP rows hrows r hr c hc⟩
  refine h.trans (fun v v' v'' hR hv => ?_) hsame
  rw [hv.1] at hR
  exact hRS v v'' hR hv.2

def written (g : Gcm) (opts : SweepOpts) (faults : Faults) (t : TableSpec) (rows : Rows) :
    TableSpec :=
  { t with
    rows := some ((rows.rows.filterMap (updateOf g opts.toKeys t.name faults.rand)).foldl
      (applyUpdate opts) rows) }

theorem rotateTable_cases (faults : Faults) (t : TableSpec) (hmode : opts.mode = .rotate) :
    (∃ e, rotateTable g opts faults t = (t, .error e)) ∨ ∃ rows, t.rows = some rows ∧
        (∀ r ∈ rows.rows, Rotatable g opts.toKeys t.name faults.rand r) ∧
        ((∃ e, rotateTable g opts faults t = (written g opts faults t rows, .error e)) ∨
          rotateTable g opts faults t = (written g opts faults t rows,
            .ok (rows.rows.filterMap (updateOf g opts.toKeys t.name faults.rand)).length)) := by
  unfold rotateTable
  by_cases hread : faults.read = true
  · exact Or.inl ⟨_, by rw [if_pos hread]⟩
  rw [if_neg hread]
  cases hrows : t.rows with
  | none => exact Or.inl ⟨_, rfl⟩
  | some rows =>
    dsimp only
    cases hcollect : collect g opts.toKeys t.name faults.rand rows.rows with
    | error e => exact Or.inl ⟨e, rfl⟩
    | ok updates =>
      obtain ⟨hrotatable, rfl⟩ := collect_ok_iff.mp hcollect
      dsimp only
      rw [hmode, if_neg (by decide)]
      split_ifs
      · exact Or.inl ⟨_, rfl⟩
      · cases faults.commit with
        | ok => exact Or.inr ⟨rows, rfl, hrotatable, Or.inr rfl⟩
        | failed => exact Or.inl ⟨_, rfl⟩
        | lost => exact Or.inr ⟨rows, rfl, hrotatable, Or.inl ⟨_, rfl⟩⟩

theorem written_rel {faults : Faults} {rows : Rows} (hrows : t.rows = some rows)
    (h : ∀ r ∈ rows.rows, Rotatable g opts.toKeys t.name faults.rand r) :
    t.Rel (Stepped g opts.toKeys) (written g opts faults t rows) ∧
      (written g opts faults t rows).All (Done g opts.toKeys) := by
  have hwritten : ((rows.rows.filterMap (updateOf g opts.toKeys t.name faults.rand)).foldl
      (applyUpdate opts) rows).rows =
        rows.rows.map (rotated g opts.toKeys t.name faults.rand opts.toVersion) :=
    rows_rotated opts rows
  constructor
  · refine ⟨rfl, rfl, ?_⟩
    rw [hrows]
    refine .some ?_
    rw [hwritten, forall₂_map_right_iff]
    exact forall₂_same.mpr fun r hr => (rotated_rel (h r hr)).1
  · intro rows' hrows' r hr
    cases hrows'
    rw [hwritten] at hr
    obtain ⟨q, hq, rfl⟩ := mem_map.mp hr
    exact (rotated_rel (h q hq)).2

theorem readable_of_rotatable {keys : Keys} {table : String}
    {rand : String → String → Option Nonce} (h : Rotatable g keys table rand r) :
    ∀ c ∈ r.cells, Readable g keys c.value := by
  intro c hc
  cases hselected : r.selected with
  | false => exact Or.inl (done_of_not_selected hselected c hc)
  | true =>
    obtain ⟨_, news, hnews⟩ := h hselected
    obtain ⟨new, _, hcell⟩ := exists_of_forall₂ (rotateCells_ok_iff.mp hnews) hc
    exact readable_of_rotateCell hcell

theorem updateOf_of_done {keys : Keys} {table : String} {rand : String → String → Option Nonce}
    (h : ∀ c ∈ r.cells, Done g keys c.value) : updateOf g keys table rand r = none := by
  unfold updateOf
  split_ifs
  · split
    · rfl
    · rename_i news hnews
      have hnone : news.any Option.isSome = false := by
        rw [any_eq_false]
        intro new hnew
        have hflip := (rotateCells_ok_iff.mp hnews).flip
        obtain ⟨c, hc, hcell⟩ := exists_of_forall₂ hflip hnew
        rw [eq_none_of_done hcell (h c hc)]
        exact Bool.false_ne_true
      rw [hnone]
      rfl
  · rfl

theorem filterMap_updateOf_of_done {faults : Faults} {rows : Rows}
    (hrows : t.rows = some rows) (h : t.All (Done g opts.toKeys)) :
    rows.rows.filterMap (updateOf g opts.toKeys t.name faults.rand) = [] := by
  rw [filterMap_eq_nil_iff]
  exact fun r hr => updateOf_of_done (h rows hrows r hr)

end Tables

def TableSpec.Dead (g : Gcm) (keys : Keys) (t : TableSpec) : Prop :=
  ∃ rows ∈ t.rows, ∃ r ∈ rows.rows, ∃ c ∈ r.cells, ¬ Readable g keys c.value

section Runs

variable {g : Gcm} {opts : SweepOpts}

structure RotateEffect (g : Gcm) (opts : SweepOpts) (t : TableSpec)
    (result : TableSpec × Except SweepError Nat) : Prop where
  rel : t.Rel (Stepped g opts.toKeys) result.1
  done : ∀ n, result.2 = .ok n → result.1.All (Done g opts.toKeys)
  dead : t.Dead g opts.toKeys → result.1 = t
  again : t.All (Done g opts.toKeys) → result.1 = t ∧ ∀ n, result.2 = .ok n → n = 0

theorem rotateEffect_skipped (t : TableSpec) (e : SweepError) :
    RotateEffect g opts t (t, .error e) where
  rel := t.rel_stepped
  done n hn := by cases hn
  dead _ := rfl
  again _ := ⟨rfl, fun n hn => by cases hn⟩

theorem rotateTable_effect (faults : Faults) (t : TableSpec) (hmode : opts.mode = .rotate) :
    RotateEffect g opts t (rotateTable g opts faults t) := by
  rcases rotateTable_cases faults t hmode with ⟨e, he⟩ | ⟨rows, hrows, hrotatable, hend⟩
  · rw [he]
    exact rotateEffect_skipped t e
  · have hwritten := written_rel hrows hrotatable
    have halive : ¬ t.Dead g opts.toKeys := by
      rintro ⟨rows', hrows', r, hr, c, hc, hdead⟩
      rw [hrows, Option.mem_some] at hrows'
      subst hrows'
      exact hdead (readable_of_rotatable (hrotatable r hr) c hc)
    have hsame : t.All (Done g opts.toKeys) → written g opts faults t rows = t := by
      intro hdone
      unfold written
      rw [filterMap_updateOf_of_done hrows hdone, foldl_nil, ← hrows]
    rcases hend with ⟨e, he⟩ | hok
    · rw [he]
      refine ⟨hwritten.1, ?_, fun hdead => absurd hdead halive, fun hdone => ⟨hsame hdone, ?_⟩⟩
      · intro n hn
        cases hn
      · intro n hn
        cases hn
    · rw [hok]
      refine ⟨hwritten.1, fun _ _ => hwritten.2, fun hdead => absurd hdead halive,
        fun hdone => ⟨hsame hdone, ?_⟩⟩
      intro n hn
      rw [filterMap_updateOf_of_done hrows hdone] at hn
      cases hn
      rfl

structure SweepEffect (g : Gcm) (opts : SweepOpts) (rep : Report) (tables : List TableSpec)
    (result : Swept) : Prop where
  rel : List.Forall₂ (TableSpec.Rel (Stepped g opts.toKeys)) tables result.tables
  done : result.error = none → ∀ t ∈ result.tables, t.All (Done g opts.toKeys)
  dead : List.Forall₂ (fun t t' => t.Dead g opts.toKeys → t' = t) tables result.tables
  again : (∀ t ∈ tables, t.All (Done g opts.toKeys)) →
    result.tables = tables ∧ result.report.rowsRotated = rep.rowsRotated

theorem sweepEffect_stopped {rep : Report} {t t' : TableSpec} {ts : List TableSpec}
    {e : SweepError} (h : RotateEffect g opts t (t', .error e)) :
    SweepEffect g opts rep (t :: ts) ⟨t' :: ts, rep, some e⟩ where
  rel := .cons h.rel (forall₂_same.mpr fun q _ => q.rel_stepped)
  done herror := by cases herror
  dead := .cons h.dead (forall₂_same.mpr fun _ _ _ => rfl)
  again hdone := by
    rw [forall_mem_cons] at hdone
    exact ⟨congrArg (· :: ts) (h.again hdone.1).1, rfl⟩

theorem sweepFrom_effect (faults : String → Faults) (hmode : opts.mode = .rotate)
    (tables : List TableSpec) (rep : Report) :
    SweepEffect g opts rep tables (sweepFrom g opts faults rep tables) := by
  induction tables generalizing rep with
  | nil => exact ⟨.nil, fun _ t ht => (by cases ht), .nil, fun _ => ⟨rfl, rfl⟩⟩
  | cons t ts ih =>
    rw [sweepFrom]
    by_cases hlookup : (t.optional && (faults t.name).exists?) = true
    · rw [if_pos hlookup]
      exact sweepEffect_stopped (rotateEffect_skipped t _)
    rw [if_neg hlookup]
    by_cases habsent : (t.optional && t.rows.isNone) = true
    · rw [if_pos habsent]
      have hrest := ih rep
      have hnone : t.rows = none := by
        rw [Bool.and_eq_true, Option.isNone_iff_eq_none] at habsent
        exact habsent.2
      have hall : t.All (Done g opts.toKeys) := by
        intro rows hrows
        rw [hnone] at hrows
        cases hrows
      refine ⟨.cons t.rel_stepped hrest.rel, ?_, .cons (fun _ => rfl) hrest.dead, ?_⟩
      · intro herror
        exact forall_mem_cons.mpr ⟨hall, hrest.done herror⟩
      · intro hdone
        obtain ⟨htables, hcount⟩ := hrest.again (forall_mem_cons.mp hdone).2
        exact ⟨congrArg (t :: ·) htables, hcount⟩
    rw [if_neg habsent]
    have heffect : RotateEffect g opts t (sweepTable g opts (faults t.name) t) := by
      unfold sweepTable
      rw [hmode]
      exact rotateTable_effect (faults t.name) t hmode
    cases hresult : sweepTable g opts (faults t.name) t with
    | mk t' answer =>
      rw [hresult] at heffect
      cases answer with
      | error e => exact sweepEffect_stopped heffect
      | ok n =>
        dsimp only
        have hrest := ih (rep.add opts.mode t.name n)
        refine ⟨.cons heffect.rel hrest.rel, ?_, .cons heffect.dead hrest.dead, ?_⟩
        · intro herror
          exact forall_mem_cons.mpr ⟨heffect.done n rfl, hrest.done herror⟩
        · intro hdone
          rw [forall_mem_cons] at hdone
          obtain ⟨hsame, hzero⟩ := heffect.again hdone.1
          obtain ⟨htables, hcount⟩ := hrest.again hdone.2
          refine ⟨by rw [show t' = t from hsame, htables], hcount.trans ?_⟩
          rw [hmode, hzero n rfl]
          rfl

theorem sweep_effect (faults : String → Faults) (hmode : opts.mode = .rotate)
    (tables : List TableSpec) :
    SweepEffect g opts ⟨0, 0, fun _ => none⟩ tables (sweep g opts faults tables) :=
  sweepFrom_effect faults hmode tables _

end Runs

structure Run where
  toVersion : Int
  faults : String → Faults

section Modes

variable (g : Gcm) (keys : Keys)

def rotation (run : Run) (tables : List TableSpec) : Swept :=
  sweep g ⟨keys, .rotate, run.toVersion⟩ run.faults tables

def dryRun (run : Run) (tables : List TableSpec) : Swept :=
  sweep g ⟨keys, .dryRun, run.toVersion⟩ run.faults tables

def verification (run : Run) (tables : List TableSpec) : Swept :=
  sweep g ⟨keys, .verify, run.toVersion⟩ run.faults tables

def rotations (runs : List Run) (tables : List TableSpec) : List TableSpec :=
  runs.foldl (fun tables run => (rotation g keys run tables).tables) tables

def Run.quiet (toVersion : Int) (nonce : Nonce) : Run :=
  ⟨toVersion, fun _ => ⟨false, false, fun _ _ => some nonce, fun _ => false, .ok⟩⟩

variable {g keys}

theorem rotations_rel (runs : List Run) (tables : List TableSpec) :
    List.Forall₂ (TableSpec.Rel (Stepped g keys)) tables (rotations g keys runs tables) := by
  induction runs generalizing tables with
  | nil => exact forall₂_same.mpr fun t _ => t.rel_of_all fun _ _ _ _ _ _ => Or.inl rfl
  | cons run runs ih =>
    have hrun : SweepEffect g ⟨keys, .rotate, run.toVersion⟩ _ tables
      (rotation g keys run tables) := sweep_effect run.faults rfl tables
    have hstepped : ∀ a b c, Stepped g keys a b → Stepped g keys b c → Stepped g keys a c :=
      fun _ _ _ hab hbc => hab.trans hbc
    exact forall₂_trans (fun _ _ _ hab hbc => hab.trans hstepped hbc) hrun.rel (ih _)

def TableSpec.Ready (P : Value → Prop) (t : TableSpec) : Prop :=
  (t.rows = none → t.optional = true) ∧
    ∀ rows ∈ t.rows, ∀ r ∈ rows.rows, r.Scans ∧ ∀ c ∈ r.cells, P c.value

theorem countOnOldKey_eq_zero_iff (table : String) {rows : List Row} :
    countOnOldKey g keys table rows = .ok 0 ↔
      ∀ r ∈ rows, r.Scans ∧ ∀ c ∈ r.cells, Done g keys c.value := by
  induction rows with
  | nil => simp [countOnOldKey]
  | cons r rows ih =>
    rw [countOnOldKey, forall_mem_cons, ← ih]
    cases hselected : r.selected with
    | false =>
      have hrow : r.Scans ∧ ∀ c ∈ r.cells, Done g keys c.value :=
        ⟨fun h => (by rw [hselected] at h; cases h), done_of_not_selected hselected⟩
      rw [and_iff_right hrow]
      rfl
    | true =>
      cases hscan : r.scannable with
      | false =>
        have hrow : ¬ r.Scans := fun h => by
          rw [h hselected] at hscan
          cases hscan
        simp [hrow]
      | true =>
        have hscans : r.Scans := fun _ => hscan
        have hany : r.cells.any (onOldKey g keys) = false ↔ ∀ c ∈ r.cells, Done g keys c.value := by
          rw [any_eq_false]
          simp only [Bool.not_eq_true, onOldKey_eq_false_iff]
        simp only [Bool.not_true, Bool.false_eq_true, if_false]
        cases hrest : countOnOldKey g keys table rows with
        | error e => simp
        | ok n =>
          rw [and_iff_right hscans, ← hany]
          cases r.cells.any (onOldKey g keys) with
          | true | false => simp

theorem sweepFrom_finishes_iff (opts : SweepOpts) (faults : String → Faults) {Q : Report → Prop}
    {q : Nat → Prop} {P : Value → Prop} (hexists : ∀ name, (faults name).exists? = false)
    (hadd : ∀ rep name m, Q (rep.add opts.mode name m) ↔ Q rep ∧ q m)
    (habsent : ∀ t : TableSpec, t.rows = none →
      sweepTable g opts (faults t.name) t = (t, .error (.query t.name)))
    (htable : ∀ (t : TableSpec) rows, t.rows = some rows →
      ((∃ m, (sweepTable g opts (faults t.name) t).2 = .ok m ∧ q m) ↔
        ∀ r ∈ rows.rows, r.Scans ∧ ∀ c ∈ r.cells, P c.value))
    (tables : List TableSpec) (rep : Report) :
    ((sweepFrom g opts faults rep tables).error = none ∧
        Q (sweepFrom g opts faults rep tables).report) ↔
      Q rep ∧ ∀ t ∈ tables, t.Ready P := by
  induction tables generalizing rep with
  | nil => simp [sweepFrom]
  | cons t ts ih =>
    rw [sweepFrom, hexists, Bool.and_false, if_neg Bool.false_ne_true, forall_mem_cons]
    cases hrows : t.rows with
    | none =>
      cases hoptional : t.optional with
      | true =>
        have hready : t.Ready P :=
          ⟨fun _ => hoptional, fun rows h => (by rw [hrows] at h; cases h)⟩
        rw [and_iff_right hready]
        exact ih rep
      | false =>
        have hready : ¬ t.Ready P := fun h => by
          rw [h.1 hrows] at hoptional
          cases hoptional
        rw [habsent t hrows]
        simp [hready]
    | some rows =>
      have hready : t.Ready P ↔ ∀ r ∈ rows.rows, r.Scans ∧ ∀ c ∈ r.cells, P c.value := by
        unfold TableSpec.Ready
        rw [hrows]
        simp
      rw [hready, ← htable t rows hrows, Option.isNone_some, Bool.and_false,
        if_neg Bool.false_ne_true]
      cases sweepTable g opts (faults t.name) t with
      | mk t' answer =>
        cases answer with
        | error e => simp
        | ok m =>
          dsimp only
          rw [ih, hadd]
          simp [and_assoc]

theorem verification_iff (toVersion : Int) (n : Nonce) (tables : List TableSpec) :
    ((verification g keys (.quiet toVersion n) tables).error = none ∧
        (verification g keys (.quiet toVersion n) tables).report.rowsOnOldKey = 0) ↔
      ∀ t ∈ tables, t.Ready (Done g keys) := by
  refine (sweepFrom_finishes_iff ⟨keys, .verify, toVersion⟩ (Run.quiet toVersion n).faults
    (Q := fun rep => rep.rowsOnOldKey = 0) (q := fun m => m = 0) (fun _ => rfl)
    (fun rep name m => Nat.add_eq_zero_iff) (fun t hrows => ?_)
    (fun t rows hrows => ?_) tables _).trans (and_iff_right rfl)
  · simp [sweepTable, verifyTable, Run.quiet, hrows]
  · rw [← countOnOldKey_eq_zero_iff t.name]
    simp [sweepTable, verifyTable, Run.quiet, hrows]

theorem rotateTable_dryRun {toVersion : Int} (faults : Faults) (t : TableSpec) :
    (rotateTable g ⟨keys, .dryRun, toVersion⟩ faults t).1 = t ∧
      ∀ t' n, rotateTable g ⟨keys, .rotate, toVersion⟩ faults t = (t', .ok n) →
        rotateTable g ⟨keys, .dryRun, toVersion⟩ faults t = (t, .ok n) := by
  unfold rotateTable
  by_cases hread : faults.read = true
  · rw [if_pos hread, if_pos hread]
    exact ⟨rfl, fun _ _ h => (by cases h)⟩
  rw [if_neg hread, if_neg hread]
  cases t.rows with
  | none => exact ⟨rfl, fun _ _ h => (by cases h)⟩
  | some rows =>
    dsimp only
    cases collect g keys t.name faults.rand rows.rows with
    | error e => exact ⟨rfl, fun _ _ h => (by cases h)⟩
    | ok updates =>
      refine ⟨rfl, fun t' n h => ?_⟩
      dsimp only at h ⊢
      rw [if_neg (by decide)] at h
      by_cases hupdate : (updates.any fun u => faults.update u.pk) = true
      · rw [if_pos hupdate] at h
        cases h
      rw [if_neg hupdate] at h
      cases hcommit : faults.commit with
      | ok =>
        rw [hcommit] at h
        cases h
        rfl
      | failed | lost =>
        rw [hcommit] at h
        cases h

theorem dryRunFrom {toVersion : Int} (faults : String → Faults) (tables : List TableSpec)
    (rep : Report) :
    (sweepFrom g ⟨keys, .dryRun, toVersion⟩ faults rep tables).tables = tables ∧
      ((sweepFrom g ⟨keys, .rotate, toVersion⟩ faults rep tables).error = none →
        (sweepFrom g ⟨keys, .dryRun, toVersion⟩ faults rep tables).error = none ∧
          (sweepFrom g ⟨keys, .dryRun, toVersion⟩ faults rep tables).report =
            (sweepFrom g ⟨keys, .rotate, toVersion⟩ faults rep tables).report) := by
  induction tables generalizing rep with
  | nil => exact ⟨rfl, fun _ => ⟨rfl, rfl⟩⟩
  | cons t ts ih =>
    rw [sweepFrom, sweepFrom]
    by_cases hlookup : (t.optional && (faults t.name).exists?) = true
    · rw [if_pos hlookup, if_pos hlookup]
      exact ⟨rfl, fun h => (by cases h)⟩
    rw [if_neg hlookup, if_neg hlookup]
    by_cases habsent : (t.optional && t.rows.isNone) = true
    · rw [if_pos habsent, if_pos habsent]
      exact ⟨congrArg (t :: ·) (ih rep).1, (ih rep).2⟩
    rw [if_neg habsent, if_neg habsent]
    have htable : (sweepTable g ⟨keys, .dryRun, toVersion⟩ (faults t.name) t).1 = t ∧
        ∀ t' n, sweepTable g ⟨keys, .rotate, toVersion⟩ (faults t.name) t = (t', .ok n) →
          sweepTable g ⟨keys, .dryRun, toVersion⟩ (faults t.name) t = (t, .ok n) :=
      rotateTable_dryRun (faults t.name) t
    cases hrotate : sweepTable g ⟨keys, .rotate, toVersion⟩ (faults t.name) t with
    | mk t' answer =>
      cases answer with
      | error e =>
        refine ⟨?_, fun h => (by cases h)⟩
        cases hdry : sweepTable g ⟨keys, .dryRun, toVersion⟩ (faults t.name) t with
        | mk t'' answer =>
          have hsame := htable.1
          rw [hdry] at hsame
          cases answer with
          | error e => exact congrArg (· :: ts) hsame
          | ok n =>
            show t'' :: _ = _
            rw [show t'' = t from hsame, (ih _).1]
      | ok n =>
        rw [htable.2 t' n hrotate]
        exact ⟨congrArg (t :: ·) (ih _).1, (ih _).2⟩

theorem rotatable_iff (hkey : keys.newKey.length = 32) (table : String) (n : Nonce) {r : Row} :
    Rotatable g keys table (fun _ _ => some n) r ↔
      r.Scans ∧ ∀ c ∈ r.cells, Readable g keys c.value := by
  constructor
  · exact fun h => ⟨fun hselected => (h hselected).1, readable_of_rotatable h⟩
  · rintro ⟨hscans, hreadable⟩ hselected
    refine ⟨hscans hselected, ?_⟩
    generalize r.cells = cells at hreadable
    induction cells with
    | nil => exact ⟨[], rfl⟩
    | cons c cells ih =>
      rw [forall_mem_cons] at hreadable
      obtain ⟨new, hnew⟩ := rotateCell_of_readable table r.pk hkey n hreadable.1
      obtain ⟨news, hnews⟩ := ih hreadable.2
      exact ⟨new :: news, by rw [rotateCells, hnew, hnews]⟩

theorem rotation_finishes_iff (hkey : keys.newKey.length = 32) (toVersion : Int) (n : Nonce)
    (tables : List TableSpec) :
    (rotation g keys (.quiet toVersion n) tables).error = none ↔
      ∀ t ∈ tables, t.Ready (Readable g keys) := by
  have h := sweepFrom_finishes_iff (g := g) ⟨keys, .rotate, toVersion⟩
    (Run.quiet toVersion n).faults (Q := fun _ => True) (q := fun _ => True)
    (P := Readable g keys) (fun _ => rfl) (fun rep name m => by simp) (fun t hrows => ?_)
    (fun t rows hrows => ?_) tables ⟨0, 0, fun _ => none⟩
  · simp only [and_true, true_and] at h
    exact h
  · simp [sweepTable, rotateTable, Run.quiet, hrows]
  · simp only [← rotatable_iff hkey t.name n]
    cases hcollect : collect g keys t.name (fun _ _ => some n) rows.rows with
    | error e =>
      have hnot : ¬ ∀ r ∈ rows.rows, Rotatable g keys t.name (fun _ _ => some n) r := by
        intro hall
        rw [collect_ok_iff.mpr ⟨hall, rfl⟩] at hcollect
        cases hcollect
      simp [sweepTable, rotateTable, Run.quiet, hrows, hcollect, hnot]
    | ok updates =>
      have hall := (collect_ok_iff.mp hcollect).1
      simpa [sweepTable, rotateTable, Run.quiet, hrows, hcollect] using hall

/-- **The contract of a rotation.** -/
theorem rotation_contract (g : Gcm) (keys : Keys) (toVersion : Int) (n : Nonce)
    (tables : List TableSpec) :
    (∀ runs last, (rotation g keys last (rotations g keys runs tables)).error = none →
      List.Forall₂ (TableSpec.Rel (Lossless g keys)) tables
          (rotation g keys last (rotations g keys runs tables)).tables ∧
        ∀ run, (rotation g keys run
              (rotation g keys last (rotations g keys runs tables)).tables).tables =
            (rotation g keys last (rotations g keys runs tables)).tables ∧
          (rotation g keys run
              (rotation g keys last (rotations g keys runs tables)).tables).report.rowsRotated =
            0) ∧
    (((verification g keys (.quiet toVersion n) tables).error = none ∧
        (verification g keys (.quiet toVersion n) tables).report.rowsOnOldKey = 0) ↔
      ∀ t ∈ tables, t.Ready (Done g keys)) ∧
    (∀ run, List.Forall₂ (fun t t' => t.Dead g keys → t' = t) tables
      (rotation g keys run tables).tables) ∧
    (∀ run, (dryRun g keys run tables).tables = tables ∧
      ((rotation g keys run tables).error = none → (dryRun g keys run tables).error = none ∧
        (dryRun g keys run tables).report = (rotation g keys run tables).report)) ∧
    (keys.newKey.length = 32 → ((rotation g keys (.quiet toVersion n) tables).error = none ↔
      ∀ t ∈ tables, t.Ready (Readable g keys))) := by
  refine ⟨fun runs last hfinished => ?_, ?_, fun run => ?_, fun run => ?_,
    fun hkey => rotation_finishes_iff hkey toVersion n tables⟩
  · have hlast : SweepEffect g ⟨keys, .rotate, last.toVersion⟩ _ (rotations g keys runs tables)
      (rotation g keys last (rotations g keys runs tables)) := sweep_effect last.faults rfl _
    have hdone := hlast.done hfinished
    have hstepped : ∀ a b c, Stepped g keys a b → Stepped g keys b c → Stepped g keys a c :=
      fun _ _ _ hab hbc => hab.trans hbc
    have hrel := forall₂_trans (fun _ _ _ hab hbc => hab.trans hstepped hbc)
      (rotations_rel runs tables) hlast.rel
    refine ⟨?_, fun run => ?_⟩
    · have hsame : List.Forall₂ (fun t t' : TableSpec => t = t' ∧ t'.All (Done g keys)) _ _ :=
        forall₂_same.mpr fun t ht => ⟨rfl, hdone t ht⟩
      refine forall₂_trans (fun t t' t'' hrel hall => ?_) hrel hsame
      rw [hall.1] at hrel
      exact hrel.imp hall.2 fun _ _ hstep hdone => hstep.lossless hdone
    · have hrun : SweepEffect g ⟨keys, .rotate, run.toVersion⟩ ⟨0, 0, fun _ => none⟩ _
        (rotation g keys run (rotation g keys last (rotations g keys runs tables)).tables) :=
        sweep_effect run.faults rfl _
      exact hrun.again hdone
  · exact verification_iff toVersion n tables
  · have hrun : SweepEffect g ⟨keys, .rotate, run.toVersion⟩ _ tables
      (rotation g keys run tables) := sweep_effect run.faults rfl tables
    exact hrun.dead
  · exact dryRunFrom run.faults tables _

def tagged : Gcm where
  sealed key _ plain := plain ++ List.replicate 16 (key.headD 0)
  opened key _ text :=
    if text.drop (text.length - 16) = List.replicate 16 (key.headD 0) then
      some (text.take (text.length - 16))
    else none
  opened_sealed key nonce plain := by simp
  length_sealed key nonce plain := by simp

def zeroNonce : Nonce := ⟨List.replicate 12 0, rfl⟩

def oneAndTwo : Keys := ⟨List.replicate 32 1, List.replicate 32 2⟩

def sealedSeven (b : UInt8) : Bytes := version :: List.replicate 12 0 ++ 7 :: List.replicate 16 b

def twoColumns (secret : Bytes) (text : Option String) : TableSpec where
  name := "configs"
  optional := false
  rows := some (.single ⟨"1", none, [⟨"secret", .bytea (some secret)⟩, ⟨"token", .hexText text⟩]⟩)

theorem rotation_contract_two_columns :
    List.Forall₂ (TableSpec.Rel (Lossless tagged oneAndTwo)) [twoColumns (sealedSeven 1) (some "")]
      (rotation tagged oneAndTwo (.quiet 1 zeroNonce) (rotations tagged oneAndTwo [⟨1, fun _ =>
          ⟨false, false, fun _ _ => some zeroNonce, fun _ => false, .failed⟩⟩]
          [twoColumns (sealedSeven 1) (some "")])).tables :=
  ((rotation_contract tagged oneAndTwo 1 zeroNonce [twoColumns (sealedSeven 1) (some "")]).1 _ _
    (by decide +kernel)).1

/-- **A verification fails although the new key opens every cell**: the text beside
the secret is `NULL`. -/
theorem verification_refuses_null :
    (twoColumns (sealedSeven 2) none).All (Done tagged oneAndTwo) ∧
      (verification tagged oneAndTwo (.quiet 1 zeroNonce) [twoColumns (sealedSeven 2) none]).error =
        some (.scan "configs") := by
  refine ⟨?_, by decide +kernel⟩
  rintro rows ⟨⟩
  decide +kernel

end Modes

end OciJanus.Crypto.Rekey
