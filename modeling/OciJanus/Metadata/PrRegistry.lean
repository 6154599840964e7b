import Mathlib.Data.List.DropRight
import Mathlib.Data.List.Nodup
import Mathlib.Data.Nat.Digits.Defs
import OciJanus.Verified.Run

/-!
# Namespaces of pull requests

A call may fail, or be carried out without an answer; namespace rows are read from a replica. One
tenant, and the provider GitHub.
-/

namespace OciJanus.Metadata.PrRegistry

open Verified.Run List Function

def lowerRune (c : Char) : Char :=
  if c.toNat = 0x130 then 'i' else if c.toNat = 0x212a then 'k' else c.toLower

def isOrgRune (c : Char) : Bool := c.isLower || c.isDigit || c == '-'

def collapseDashes : List Char → List Char
  | [] => []
  | c :: cs =>
    match collapseDashes cs with
    | '-' :: rest => if c = '-' then '-' :: rest else c :: '-' :: rest
    | rest => c :: rest

def trimRightDashes (cs : List Char) : List Char := (cs.reverse.dropWhile (· = '-')).reverse

def sanitize (s : String) : List Char :=
  let runes := s.toList.map fun c => if isOrgRune (lowerRune c) then lowerRune c else '-'
  trimRightDashes ((collapseDashes runes).dropWhile (· = '-'))

def maxOrgNameLen : Nat := 64

def isOrgName (cs : List Char) : Bool := cs.all isOrgRune && 2 ≤ cs.length && cs.length ≤ 64

def deriveOrgName (repoName : String) (prNumber : Int) : Option String :=
  let repo := sanitize repoName
  let suffix := ("-" ++ toString prNumber).toList
  -- a budget that is not positive leaves nothing of the repository
  let budget := maxOrgNameLen - 3 - suffix.length
  let middle := if budget < repo.length then trimRightDashes (repo.take budget) else repo
  let name := "pr-".toList ++ middle ++ suffix
  if repo = [] ∨ budget = 0 ∨ middle = [] then none
  else if isOrgName name then some (String.ofList name)
  else none

section Names

variable {cs : List Char} {repoName : String}

theorem trimRightDashes_append : trimRightDashes cs <+: cs :=
  rdropWhile_prefix _ _

theorem getLast?_trimRightDashes : (trimRightDashes cs).getLast? ≠ some '-' := by
  unfold trimRightDashes
  rw [List.getLast?_reverse]
  intro h
  have hhead := List.head?_dropWhile_not (· = '-') cs.reverse
  simp [h] at hhead

theorem mem_of_mem_collapseDashes {c : Char} (h : c ∈ collapseDashes cs) : c ∈ cs := by
  induction cs with
  | nil => exact h
  | cons d cs ih =>
    rw [collapseDashes] at h
    split at h
    · rename_i rest hrest
      rw [hrest] at ih
      split_ifs at h with hd
      · exact mem_cons_of_mem d (ih h)
      · rcases mem_cons.mp h with rfl | h
        · exact mem_cons_self
        · exact mem_cons_of_mem d (ih h)
    · rcases mem_cons.mp h with rfl | h
      · exact mem_cons_self
      · exact mem_cons_of_mem d (ih h)

theorem isOrgRune_of_mem_sanitize {c : Char} (h : c ∈ sanitize repoName) :
    isOrgRune c = true := by
  have hmap := mem_of_mem_collapseDashes
    ((dropWhile_suffix _).subset (trimRightDashes_append.subset h))
  obtain ⟨d, -, rfl⟩ := mem_map.mp hmap
  split_ifs with hd
  · exact hd
  · rfl

theorem head?_sanitize : (sanitize repoName).head? ≠ some '-' := by
  intro h
  obtain ⟨rest, hrest⟩ := List.head?_eq_some_iff.mp h
  obtain ⟨t, ht⟩ : sanitize repoName <+: _ := trimRightDashes_append
  rw [hrest] at ht
  have hhead := List.head?_dropWhile_not (· = '-')
    (collapseDashes (repoName.toList.map fun c =>
      if isOrgRune (lowerRune c) then lowerRune c else '-'))
  simp [← ht] at hhead

theorem decimal_number {n : Nat} (hn : n < 9223372036854775808) :
    (Nat.repr n).toList.length ≤ 19 ∧ ∀ c ∈ (Nat.repr n).toList, isOrgRune c = true := by
  rw [Nat.repr, String.toList_ofList]
  refine ⟨Nat.toDigits_length 10 n 19 (by decide) (by omega), fun c hc => ?_⟩
  have hdigit := Nat.isDigit_of_mem_toDigits (by decide) (by decide) hc
  simp [isOrgRune, hdigit]

theorem middle_spec {repo : List Char} (budget : Nat) (hrepo : repo ≠ [])
    (hhead : repo.head? ≠ some '-') (hlast : repo.getLast? ≠ some '-') (hbudget : 0 < budget) :
    let middle := if budget < repo.length then trimRightDashes (repo.take budget) else repo
    middle ≠ [] ∧ middle <+: repo ∧ middle.getLast? ≠ some '-' ∧ middle.length ≤ budget := by
  intro middle
  by_cases hlong : budget < repo.length
  · have hmiddle : middle = trimRightDashes (repo.take budget) := if_pos hlong
    rw [hmiddle]
    have hinit : trimRightDashes (repo.take budget) <+: repo.take budget :=
      trimRightDashes_append
    refine ⟨fun hnil => ?_, hinit.trans <| take_prefix .., getLast?_trimRightDashes,
      hinit.length_le.trans (length_take_le ..)⟩
    -- only dashes would be trimmed away, and the first rune is none
    obtain ⟨c, cs, rfl⟩ := exists_cons_of_ne_nil hrepo
    obtain ⟨k, rfl⟩ := Nat.exists_eq_succ_of_ne_zero (Nat.pos_iff_ne_zero.mp hbudget)
    have hdash := rdropWhile_eq_nil_iff.mp hnil c (by simp)
    simp_all
  · have hmiddle : middle = repo := if_neg hlong
    rw [hmiddle]
    exact ⟨hrepo, prefix_rfl, hlast, by omega⟩

theorem isOrgName_parts {middle digits : List Char} (hmiddle : ∀ c ∈ middle, isOrgRune c = true)
    (hdigits : ∀ c ∈ digits, isOrgRune c = true) (hlen : middle.length + digits.length ≤ 60) :
    isOrgName ("pr-".toList ++ middle ++ '-' :: digits) = true := by
  have hrunes : ∀ c ∈ "pr-".toList ++ middle ++ '-' :: digits, isOrgRune c = true := by
    intro c hc
    rw [append_assoc, mem_append, mem_append, mem_cons] at hc
    rcases hc with hc | hc | rfl | hc
    · exact all_eq_true.mp (by decide : "pr-".toList.all isOrgRune = true) c hc
    · exact hmiddle c hc
    · rfl
    · exact hdigits c hc
  have hthree : "pr-".toList.length = 3 := rfl
  have htotal : ("pr-".toList ++ middle ++ '-' :: digits).length =
      3 + middle.length + (digits.length + 1) := by
    rw [length_append, length_append, length_cons, hthree]
  rw [isOrgName, all_eq_true.mpr hrunes, htotal]
  simp only [Bool.true_and, Bool.and_eq_true, decide_eq_true_eq]
  omega

/-- **A derived name is a valid one**: it fails only when nothing is left of
the repository, and keeps the number whatever is cut. -/
theorem derived_name_valid (repoName : String) (prNumber : Int) (hpos : 0 ≤ prNumber)
    (hint : prNumber < 9223372036854775808) :
    (deriveOrgName repoName prNumber = none ↔ sanitize repoName = []) ∧
    ∀ name, deriveOrgName repoName prNumber = some name → isOrgName name.toList = true ∧
      ∃ segment, segment ≠ [] ∧ segment <+: sanitize repoName ∧
        segment.getLast? ≠ some '-' ∧
        name = String.ofList ("pr-".toList ++ segment ++ '-' :: (toString prNumber).toList) := by
  obtain ⟨n, rfl⟩ := Int.eq_ofNat_of_zero_le hpos
  obtain ⟨hlen, hdigits⟩ := decimal_number (n := n) (by omega)
  have hsuffix : ("-" ++ toString (n : Int)).toList = '-' :: (Nat.repr n).toList := by
    simp [String.toList_append, toString, Int.repr]
  unfold deriveOrgName
  simp only [hsuffix, maxOrgNameLen, length_cons]
  by_cases hrepo : sanitize repoName = []
  · simp [hrepo]
  generalize hbudget : 64 - 3 - ((Nat.repr n).toList.length + 1) = budget
  have hmiddle := middle_spec budget hrepo head?_sanitize getLast?_trimRightDashes
    (by omega)
  generalize (if budget < (sanitize repoName).length then
    trimRightDashes ((sanitize repoName).take budget) else sanitize repoName) = middle at hmiddle ⊢
  obtain ⟨hne, hinit, hlast, hshort⟩ := hmiddle
  have hname : isOrgName ("pr-".toList ++ middle ++ '-' :: (Nat.repr n).toList) = true :=
    isOrgName_parts (fun c hc => isOrgRune_of_mem_sanitize (hinit.subset hc)) hdigits (by omega)
  have hsome : ¬ (sanitize repoName = [] ∨ budget = 0 ∨ middle = []) := by
    rintro (h | h | h)
    · exact hrepo h
    · omega
    · exact hne h
  rw [if_neg hsome, if_pos hname]
  refine ⟨by simp [hrepo], ?_⟩
  rintro name ⟨⟩
  exact ⟨by rwa [String.toList_ofList], middle, hne, hinit, hlast, rfl⟩

theorem derived_name_of_pull_request :
    ∃ name, deriveOrgName "acme/My_App" 7 = some name ∧ isOrgName name.toList = true :=
  ⟨"pr-acme-my-app-7", by decide,
    ((derived_name_valid "acme/My_App" 7 (by decide) (by decide)).2 _ (by decide)).1⟩

end Names

structure Pr where
  sourceRepo : String
  number : Int
  deriving DecidableEq

inductive Creator where
  | provision (pr : Pr)
  | other
  deriving DecidableEq

structure Org where
  id : Nat
  name : String
  creator : Creator
  deriving DecidableEq

structure Namespace where
  orgID : Option Nat
  orgName : String
  active : Bool

inductive Kind where
  | opened
  | reopened
  | closed (merged : Bool)
  | other

structure Event where
  kind : Kind
  (fullName name : String)
  number : Int

def Event.pr (e : Event) : Pr := ⟨e.fullName, e.number⟩

inductive Phase where
  | lookupOrg
  | getNamespace (existing : Nat)
  | getOrCreateOrg
  | upsert (orgID : Nat)
  | getForPromote
  | promote
  | getForTearDown
  | tearDown (orgID : Option Nat)
  deriving DecidableEq

structure Handler where
  pr : Pr
  orgName : String
  phase : Phase

inductive Fate where
  | ok
  | lost
  | failed
  deriving DecidableEq

/-- `deleted` remembers the organizations deleted, and for which pull request. -/
structure System where
  orgs : List Org
  namespaces : Pr → List Namespace
  handlers : Nat → Option Handler
  nextID : Nat
  deleted : List (Org × Pr)

inductive Action where
  | deliver (i : Nat) (e : Event)
  | step (i : Nat) (fate : Fate) (stale : Nat)
  | createOrg (name : String)

def firstPhase (promoteTargetOrg : String) : Kind → Option Phase
  | .opened => some .lookupOrg
  | .reopened => some .lookupOrg
  | .closed merged =>
    if merged && promoteTargetOrg != "" then some .getForPromote else some .getForTearDown
  | .other => none

def Event.handler (promoteTargetOrg : String) (e : Event) : Option Handler :=
  match deriveOrgName e.name e.number, firstPhase promoteTargetOrg e.kind with
  | some orgName, some phase => some ⟨e.pr, orgName, phase⟩
  | _, _ => none

namespace System

def empty : System := ⟨[], fun _ => [], fun _ => none, 0, []⟩

variable (s : System)

def findOrg (name : String) : Option Org := s.orgs.find? fun o => o.name = name

def getOrCreateOrg (name : String) (creator : Creator) : System × Nat :=
  match s.findOrg name with
  | some o => (s, o.id)
  | none =>
    ({ s with orgs := s.orgs ++ [⟨s.nextID, name, creator⟩], nextID := s.nextID + 1 }, s.nextID)

def upsertNamespace (pr : Pr) (orgID : Nat) (orgName : String) : Option System :=
  if s.orgs.any fun o => o.id = orgID then
    some
      { s with
        namespaces :=
          update s.namespaces pr (⟨some orgID, orgName, true⟩ :: s.namespaces pr) }
  else none

def tornDown (pr : Pr) (orgID : Option Nat) (pr' : Pr) : List Namespace :=
  match s.namespaces pr' with
  | [] => []
  | row :: rest =>
    if pr' = pr then { row with active := false, orgID := none } :: row :: rest
    else if orgID ≠ none ∧ row.orgID = orgID then { row with orgID := none } :: row :: rest
    else row :: rest

def tearDownNamespace (pr : Pr) (orgID : Option Nat) : System :=
  { s with
    orgs := s.orgs.filter fun o => orgID ≠ some o.id
    namespaces := s.tornDown pr orgID
    deleted := s.deleted ++ (s.orgs.filter fun o => orgID = some o.id).map (·, pr) }

def setHandler (i : Nat) (h : Option Handler) : System :=
  { s with handlers := update s.handlers i h }

def afterRead (i : Nat) (h : Handler) (fate : Fate) (next : Option Phase) : System :=
  match fate with
  | .ok => s.setHandler i (next.map fun phase => { h with phase := phase })
  | _ => s.setHandler i none

def afterWrite (i : Nat) (h : Handler) (fate : Fate) (written : System) (next : Option Phase) :
    System :=
  match fate with
  | .ok => written.setHandler i (next.map fun phase => { h with phase := phase })
  | .lost => written.setHandler i none
  | .failed => s.setHandler i none

def call (i : Nat) (h : Handler) (fate : Fate) (stale : Nat) : System :=
  let row := (s.namespaces h.pr)[stale]?
  match h.phase with
  | .lookupOrg =>
    s.afterRead i h fate (match s.findOrg h.orgName with
      | none => some .getOrCreateOrg
      | some o => some (.getNamespace o.id))
  | .getNamespace existing =>
    -- a row that cannot be read is taken as somebody else's
    s.afterRead i h fate
      (if row.any fun r => r.orgID = some existing then some .getOrCreateOrg else none)
  | .getOrCreateOrg =>
    let written := s.getOrCreateOrg h.orgName (.provision h.pr)
    s.afterWrite i h fate written.1 (some (.upsert written.2))
  | .upsert orgID =>
    match s.upsertNamespace h.pr orgID h.orgName with
    | none => s.setHandler i none
    | some written => s.afterWrite i h fate written none
  | .getForPromote =>
    s.afterRead i h fate
      (if row.any fun r => r.active && r.orgID.isSome then some .promote else none)
  | .promote => s.afterRead i h fate (some .getForTearDown)
  | .getForTearDown =>
    s.afterRead i h fate (match row with
      | some r => if r.active then some (.tearDown r.orgID) else none
      | none => none)
  | .tearDown orgID => s.afterWrite i h fate (s.tearDownNamespace h.pr orgID) none

def step (promoteTargetOrg : String) : Action → System
  | .deliver i e =>
    match s.handlers i with
    | some _ => s
    | none => s.setHandler i (e.handler promoteTargetOrg)
  | .step i fate stale =>
    match s.handlers i with
    | none => s
    | some h => s.call i h fate stale
  | .createOrg name => (s.getOrCreateOrg name .other).1

end System

section Ownership

variable {s : System} {promoteTargetOrg : String}

def AdoptsOwn (s : System) (a : Action) : Prop :=
  match a with
  | .step i .ok _ =>
    ∀ h ∈ s.handlers i, h.phase = .getOrCreateOrg →
      ∀ o ∈ s.findOrg h.orgName, o.creator = .provision h.pr
  | _ => True

instance (s : System) (a : Action) : Decidable (AdoptsOwn s a) := by
  unfold AdoptsOwn
  split <;> infer_instance

structure OwnedIn (orgs : List Org) (nextID : Nat) (pr : Pr) (id : Nat) : Prop where
  old : id < nextID
  creator : ∀ o ∈ orgs, o.id = id → o.creator = .provision pr

abbrev Owned (s : System) : Pr → Nat → Prop := OwnedIn s.orgs s.nextID

def Phase.orgID? : Phase → Option Nat
  | .upsert orgID => some orgID
  | .tearDown orgID => orgID
  | _ => none

structure Inv (s : System) : Prop where
  ids : ∀ o ∈ s.orgs, o.id < s.nextID
  unique : (s.orgs.map (·.id)).Nodup
  rows : ∀ pr, ∀ row ∈ s.namespaces pr, ∀ id ∈ row.orgID, Owned s pr id
  handlers : ∀ i, ∀ h ∈ s.handlers i, ∀ id ∈ h.phase.orgID?, Owned s h.pr id
  deleted : ∀ d ∈ s.deleted, d.1.creator = .provision d.2

structure Extends (s s' : System) : Prop where
  nextID : s.nextID ≤ s'.nextID
  orgs : ∀ o ∈ s'.orgs, o ∈ s.orgs ∨ s.nextID ≤ o.id

theorem OwnedIn.extends {s' : System} {pr : Pr} {id : Nat} (h : Owned s pr id)
    (hext : Extends s s') : Owned s' pr id where
  old := Nat.lt_of_lt_of_le h.old hext.nextID
  creator o ho hid := by
    rcases hext.orgs o ho with hold | hnew
    · exact h.creator o hold hid
    · have hlt := h.old
      omega

theorem extends_getOrCreateOrg (s : System) (name : String) (creator : Creator) :
    Extends s (s.getOrCreateOrg name creator).1 := by
  unfold System.getOrCreateOrg
  cases s.findOrg name with
  | some o => exact ⟨Nat.le_refl _, fun o ho => Or.inl ho⟩
  | none =>
    refine ⟨Nat.le_succ _, ?_⟩
    intro o ho
    rcases mem_append.mp ho with hold | hnew
    · exact Or.inl hold
    · rw [mem_singleton.mp hnew]
      exact Or.inr (Nat.le_refl _)

theorem extends_tearDown (s : System) (pr : Pr) (orgID : Option Nat) :
    Extends s (s.tearDownNamespace pr orgID) :=
  ⟨Nat.le_refl _, fun _ ho => Or.inl (mem_filter.mp ho).1⟩

theorem owned_getOrCreateOrg {name : String} {pr : Pr} (hids : ∀ o ∈ s.orgs, o.id < s.nextID)
    (hunique : (s.orgs.map (·.id)).Nodup) (hown : ∀ o ∈ s.findOrg name, o.creator = .provision pr) :
    Owned (s.getOrCreateOrg name (.provision pr)).1 pr
      (s.getOrCreateOrg name (.provision pr)).2 := by
  unfold System.getOrCreateOrg
  cases hfind : s.findOrg name with
  | some o =>
    have ho : o ∈ s.orgs := mem_of_find?_eq_some hfind
    refine ⟨hids o ho, ?_⟩
    intro o' ho' hid
    rw [inj_on_of_nodup_map hunique ho' ho hid]
    exact hown o hfind
  | none =>
    refine ⟨Nat.lt_succ_self _, ?_⟩
    intro o ho hid
    rcases mem_append.mp ho with hold | hnew
    · have hlt := hids o hold
      have hid : o.id = s.nextID := hid
      omega
    · rw [mem_singleton.mp hnew]

theorem afterRead_keeps {P : System → Prop} {i : Nat} {hd : Handler} (fate : Fate)
    {next : Option Phase} (hidle : P (s.setHandler i none))
    (hok : P (s.setHandler i (next.map fun phase => { hd with phase := phase }))) :
    P (s.afterRead i hd fate next) := by
  cases fate with
  | ok => exact hok
  | lost | failed => exact hidle

theorem afterWrite_keeps {P : System → Prop} {i : Nat} {hd : Handler} (fate : Fate)
    {written : System} {next : Option Phase} (hfailed : P (s.setHandler i none))
    (hlost : P (written.setHandler i none))
    (hok : fate = .ok →
      P (written.setHandler i (next.map fun phase => { hd with phase := phase }))) :
    P (s.afterWrite i hd fate written next) := by
  cases fate with
  | ok => exact hok rfl
  | lost => exact hlost
  | failed => exact hfailed

namespace Inv

theorem empty : Inv System.empty where
  ids _ h := by cases h
  unique := nodup_nil
  rows _ _ h := by cases h
  handlers _ _ h := by cases h
  deleted _ h := by cases h

theorem setHandler (h : Inv s) {i : Nat} {new : Option Handler}
    (hnew : ∀ hd ∈ new, ∀ id ∈ hd.phase.orgID?, Owned s hd.pr id) : Inv (s.setHandler i new) where
  ids := h.ids
  unique := h.unique
  rows := h.rows
  handlers j hd hhd id hid := by
    have hhd : update s.handlers i new j = some hd := hhd
    by_cases hj : j = i
    · subst hj
      rw [update_self] at hhd
      exact hnew hd hhd id hid
    · rw [update_of_ne hj] at hhd
      exact h.handlers j hd hhd id hid
  deleted := h.deleted

theorem idle (h : Inv s) (i : Nat) : Inv (s.setHandler i none) :=
  h.setHandler fun _ hnone => by cases hnone

variable {hd : Handler}

theorem next (h : Inv s) {i : Nat} {next : Option Phase}
    (hnext : ∀ phase ∈ next, ∀ id ∈ phase.orgID?, Owned s hd.pr id) :
    Inv (s.setHandler i (next.map fun phase => { hd with phase := phase })) := by
  refine h.setHandler fun hd' hhd' => ?_
  obtain ⟨phase, hphase, rfl⟩ := Option.map_eq_some_iff.mp hhd'
  exact hnext phase hphase

theorem afterRead (h : Inv s) {i : Nat} (fate : Fate) {next : Option Phase}
    (hnext : ∀ phase ∈ next, ∀ id ∈ phase.orgID?, Owned s hd.pr id) :
    Inv (s.afterRead i hd fate next) :=
  afterRead_keeps fate (h.idle i) (h.next hnext)

theorem afterWrite (h : Inv s) {i : Nat} (fate : Fate) {written : System}
    {next : Option Phase} (hwritten : Inv written)
    (hnext : fate = .ok → ∀ phase ∈ next, ∀ id ∈ phase.orgID?, Owned written hd.pr id) :
    Inv (s.afterWrite i hd fate written next) :=
  afterWrite_keeps fate (h.idle i) (hwritten.idle i) fun hok => hwritten.next (hnext hok)

theorem getOrCreateOrg (h : Inv s) (name : String) (creator : Creator) :
    Inv (s.getOrCreateOrg name creator).1 := by
  have hext := extends_getOrCreateOrg s name creator
  unfold System.getOrCreateOrg at hext ⊢
  cases hfind : s.findOrg name with
  | some o => exact h
  | none =>
    rw [hfind] at hext
    dsimp only at hext ⊢
    refine ⟨?_, ?_, ?_, ?_, h.deleted⟩
    · intro o ho
      rcases mem_append.mp ho with hold | hnew
      · exact Nat.lt_succ_of_lt (h.ids o hold)
      · rw [mem_singleton.mp hnew]
        exact Nat.lt_succ_self _
    · rw [map_append]
      refine h.unique.append (nodup_singleton _) ?_
      intro id hold hnew
      obtain ⟨o, ho, rfl⟩ := mem_map.mp hold
      have hlt := h.ids o ho
      have heq : o.id = s.nextID := mem_singleton.mp hnew
      omega
    · exact fun pr row hrow id hid => (h.rows pr row hrow id hid).extends hext
    · exact fun j hd hhd id hid => (h.handlers j hd hhd id hid).extends hext

theorem upsertNamespace (h : Inv s) {pr : Pr} {orgID : Nat} {orgName : String} {written : System}
    (howned : Owned s pr orgID) (hwritten : s.upsertNamespace pr orgID orgName = some written) :
    Inv written := by
  unfold System.upsertNamespace at hwritten
  split_ifs at hwritten
  cases hwritten
  refine ⟨h.ids, h.unique, ?_, h.handlers, h.deleted⟩
  intro pr' row hrow id hid
  have hrow : row ∈ update s.namespaces pr
      (⟨some orgID, orgName, true⟩ :: s.namespaces pr) pr' := hrow
  by_cases hpr : pr' = pr
  · subst hpr
    rw [update_self] at hrow
    rcases mem_cons.mp hrow with hnew | hold
    · rw [hnew] at hid
      cases hid
      exact howned
    · exact h.rows pr' row hold id hid
  · rw [update_of_ne hpr] at hrow
    exact h.rows pr' row hrow id hid

theorem orgID_tornDown {pr pr' : Pr} {orgID : Option Nat} {row : Namespace}
    (hrow : row ∈ s.tornDown pr orgID pr') {id : Nat} (hid : row.orgID = some id) :
    row ∈ s.namespaces pr' := by
  unfold System.tornDown at hrow
  cases hversions : s.namespaces pr' with
  | nil =>
    rw [hversions] at hrow
    cases hrow
  | cons latest rest =>
    rw [hversions] at hrow
    dsimp only at hrow
    split_ifs at hrow
    · rcases mem_cons.mp hrow with rfl | hold
      · cases hid
      · exact hold
    · rcases mem_cons.mp hrow with rfl | hold
      · cases hid
      · exact hold
    · exact hrow

theorem tearDownNamespace (h : Inv s) {pr : Pr} {orgID : Option Nat}
    (howned : ∀ id ∈ orgID, Owned s pr id) : Inv (s.tearDownNamespace pr orgID) := by
  have hext := extends_tearDown s pr orgID
  refine ⟨?_, ?_, ?_, ?_, ?_⟩
  · exact fun o ho => h.ids o (mem_filter.mp ho).1
  · exact h.unique.sublist (filter_sublist.map _)
  · exact fun pr' row hrow id hid =>
      (h.rows pr' row (orgID_tornDown hrow hid) id hid).extends hext
  · exact fun j hd hhd id hid => (h.handlers j hd hhd id hid).extends hext
  · intro d hd
    rcases mem_append.mp hd with hold | hnew
    · exact h.deleted d hold
    · obtain ⟨o, ho, rfl⟩ := mem_map.mp hnew
      obtain ⟨hmem, hid⟩ := mem_filter.mp ho
      exact (howned o.id (of_decide_eq_true hid)).creator o hmem rfl

theorem read (h : Inv s) {pr : Pr} {stale : Nat} {row : Namespace}
    (hrow : (s.namespaces pr)[stale]? = some row) : ∀ id ∈ row.orgID, Owned s pr id :=
  h.rows pr row (mem_of_getElem? hrow)

theorem call (h : Inv s) {i : Nat} {fate : Fate} {stale : Nat} (hhd : s.handlers i = some hd)
    (hown : fate = .ok → hd.phase = .getOrCreateOrg →
      ∀ o ∈ s.findOrg hd.orgName, o.creator = .provision hd.pr) : Inv (s.call i hd fate stale) := by
  unfold System.call
  dsimp only
  cases hphase : hd.phase with
  | lookupOrg =>
    refine h.afterRead fate ?_
    cases s.findOrg hd.orgName with
    | none | some => exact fun phase hp id hid => by cases hp; cases hid
  | getNamespace | getForPromote =>
    refine h.afterRead fate ?_
    intro phase hp id hid
    split_ifs at hp
    · cases hp
      cases hid
    · cases hp
  | getOrCreateOrg =>
    refine h.afterWrite fate (h.getOrCreateOrg _ _) ?_
    intro hfate phase hp id hid
    cases hp
    cases hid
    exact owned_getOrCreateOrg h.ids h.unique (hown hfate hphase)
  | upsert orgID =>
    have howned : Owned s hd.pr orgID := h.handlers i hd hhd orgID (by rw [hphase]; rfl)
    dsimp only
    cases hwritten : s.upsertNamespace hd.pr orgID hd.orgName with
    | none => exact h.idle i
    | some written =>
      refine h.afterWrite fate (h.upsertNamespace howned hwritten) ?_
      exact fun _ phase hp => by cases hp
  | promote => exact h.afterRead fate fun phase hp id hid => by cases hp; cases hid
  | getForTearDown =>
    refine h.afterRead fate ?_
    intro phase hp id hid
    split at hp
    · next row hrow =>
        split_ifs at hp
        · cases hp
          exact h.read hrow id hid
        · cases hp
    · cases hp
  | tearDown orgID =>
    have howned : ∀ id ∈ orgID, Owned s hd.pr id := by
      intro id hid
      exact h.handlers i hd hhd id (by rw [hphase]; exact hid)
    exact h.afterWrite fate (h.tearDownNamespace howned) fun _ phase hp => by cases hp

theorem step (h : Inv s) {a : Action} (ha : AdoptsOwn s a) : Inv (s.step promoteTargetOrg a) := by
  cases a with
  | deliver i e =>
    unfold System.step
    dsimp only
    cases hi : s.handlers i with
    | some hd => exact h
    | none =>
      refine h.setHandler ?_
      intro hd hhd id hid
      unfold Event.handler at hhd
      split at hhd
      next orgName phase _ hfirst =>
        cases hhd
        -- no event begins with a write
        have hnone : phase.orgID? = none := by
          unfold firstPhase at hfirst
          split at hfirst
          · cases hfirst
            rfl
          · cases hfirst
            rfl
          · split_ifs at hfirst <;> cases hfirst <;> rfl
          · cases hfirst
        rw [hnone] at hid
        cases hid
      next => cases hhd
  | step i fate stale =>
    unfold System.step
    dsimp only
    cases hi : s.handlers i with
    | none => exact h
    | some hd =>
      refine h.call hi ?_
      rintro rfl hphase
      exact ha hd hi hphase
  | createOrg name => exact h.getOrCreateOrg name .other

end Inv

/-- **A teardown deletes only what was inserted for its pull request.** -/
theorem teardown_own (promoteTargetOrg : String) (acts : List Action)
    (h : Guarded (System.step · promoteTargetOrg) AdoptsOwn System.empty acts) :
    ∀ d ∈ (run (System.step · promoteTargetOrg) System.empty acts).deleted,
      d.1.creator = .provision d.2 :=
  (run_invariant (fun _ _ hs ha => hs.step ha) Inv.empty h).deleted

def opened (fullName name : String) : Event := ⟨.opened, fullName, name, 1⟩

def closed (fullName name : String) : Event := ⟨.closed false, fullName, name, 1⟩

def calls (i n : Nat) : List Action := List.replicate n (.step i .ok 0)

def lifecycle : List Action :=
  .deliver 1 (opened "acme/app" "app") :: calls 1 3 ++
    .deliver 2 (opened "acme/app" "app") :: calls 2 4 ++
    .deliver 3 (closed "acme/app" "app") :: calls 3 2

theorem teardown_own_lifecycle :
    Guarded (System.step · "") AdoptsOwn System.empty lifecycle ∧
      (∀ d ∈ (run (System.step · "") System.empty lifecycle).deleted,
        d.1.creator = .provision d.2) ∧
      (run (System.step · "") System.empty lifecycle).deleted =
        [(⟨0, "pr-app-1", .provision ⟨"acme/app", 1⟩⟩, ⟨"acme/app", 1⟩)] := by
  have hguard : Guarded (System.step · "") AdoptsOwn System.empty lifecycle := by
    decide +kernel
  exact ⟨hguard, teardown_own "" lifecycle hguard, by decide +kernel⟩

def adopted : List Action :=
  [.deliver 1 (opened "acme/app" "app"), .deliver 2 (opened "umbrella/app" "app"),
    .step 1 .ok 0, .step 2 .ok 0, .step 1 .ok 0, .step 2 .ok 0, .step 1 .ok 0, .step 2 .ok 0] ++
    .deliver 3 (closed "umbrella/app" "app") :: calls 3 2

/-- **The organization of one pull request is deleted with another.** -/
theorem teardown_of_another :
    (run (System.step · "") System.empty adopted).deleted =
      [(⟨0, "pr-app-1", .provision ⟨"acme/app", 1⟩⟩, ⟨"umbrella/app", 1⟩)] := by
  decide +kernel

end Ownership

structure Attempt where
  oks : List Nat
  carriedOut : Bool
  stale : Nat

def Attempt.fate (a : Attempt) : Fate := if a.carriedOut then .lost else .failed

def Attempt.acts (i : Nat) (e : Event) (a : Attempt) : List Action :=
  .deliver i e :: (a.oks.map (.step i .ok) ++ [.step i a.fate a.stale])

def redelivery (i : Nat) (e : Event) (stale : Fin 4 → Nat) : List Action :=
  .deliver i e :: (List.finRange 4).map fun k => .step i .ok (stale k)

def Attempt.insertsOrg (a : Attempt) : Bool :=
  2 ≤ a.oks.length || (a.oks.length == 1 && a.carriedOut)

def Attempt.storesRow (a : Attempt) : Bool :=
  3 ≤ a.oks.length || (a.oks.length == 2 && a.carriedOut)

def Converged (s : System) (pr : Pr) (orgName : String) : Prop :=
  ∃ o, s.findOrg orgName = some o ∧ ∃ rest, s.namespaces pr = ⟨some o.id, orgName, true⟩ :: rest

section Attempts

variable {s : System} {target : String} {i : Nat} {e : Event} {orgName : String}

theorem step_deliver (hi : s.handlers i = none)
    (hname : deriveOrgName e.name e.number = some orgName) (hkind : e.kind = .opened) :
    s.step target (.deliver i e) = s.setHandler i (some ⟨e.pr, orgName, .lookupOrg⟩) := by
  unfold System.step Event.handler
  dsimp only
  rw [hi, hname, hkind]
  rfl

theorem handlers_setHandler (s : System) (i : Nat) (h : Option Handler) :
    (s.setHandler i h).handlers i = h := by
  show update s.handlers i h i = h
  rw [update_self]

theorem step_step {h : Handler} (hi : s.handlers i = some h) (fate : Fate) (stale : Nat) :
    s.step target (.step i fate stale) = s.call i h fate stale := by
  unfold System.step
  dsimp only
  rw [hi]

theorem step_idle (hi : s.handlers i = none) (fate : Fate) (stale : Nat) :
    s.step target (.step i fate stale) = s := by
  unfold System.step
  dsimp only
  rw [hi]

def HandlerAt (s : System) (i : Nat) (pr : Pr) (orgName : String) (P : Phase → Prop) : Prop :=
  ∀ h ∈ s.handlers i, h.pr = pr ∧ h.orgName = orgName ∧ P h.phase

theorem handlerAt_idle (s : System) (i : Nat) (pr : Pr) (orgName : String) (P : Phase → Prop) :
    HandlerAt (s.setHandler i none) i pr orgName P := by
  intro h hh
  rw [handlers_setHandler] at hh
  cases hh

theorem handlerAt_lookup (s : System) (i : Nat) (pr : Pr) (orgName : String) {P : Phase → Prop}
    (h : P .lookupOrg) :
    HandlerAt (s.setHandler i (some ⟨pr, orgName, .lookupOrg⟩)) i pr orgName P := by
  intro h' hh'
  rw [handlers_setHandler] at hh'
  cases hh'
  exact ⟨rfl, rfl, h⟩

theorem handlerAt_next {pr : Pr} {P : Phase → Prop} {h : Handler} (hpr : h.pr = pr)
    (hname : h.orgName = orgName) {next : Option Phase} (hnext : ∀ phase ∈ next, P phase) :
    HandlerAt (s.setHandler i (next.map fun phase => { h with phase := phase })) i pr orgName
      P := by
  intro h' hh'
  rw [handlers_setHandler] at hh'
  obtain ⟨phase, hphase, rfl⟩ := Option.map_eq_some_iff.mp hh'
  exact ⟨hpr, hname, hnext phase hphase⟩

def Phase.renews (orgID : Nat) : Phase → Prop
  | .lookupOrg => True
  | .getNamespace _ => True
  | .getOrCreateOrg => True
  | .upsert id => id = orgID
  | _ => False

structure Provisioned (s : System) (i : Nat) (pr : Pr) (orgName : String) (o : Org) : Prop where
  found : s.findOrg orgName = some o
  row : ∃ rest, s.namespaces pr = ⟨some o.id, orgName, true⟩ :: rest
  handler : HandlerAt s i pr orgName (Phase.renews o.id)

namespace Provisioned

variable {pr : Pr} {o : Org}

theorem setHandler (h : Provisioned s i pr orgName o) {new : Option Handler}
    (hnew : HandlerAt (s.setHandler i new) i pr orgName (Phase.renews o.id)) :
    Provisioned (s.setHandler i new) i pr orgName o :=
  ⟨h.found, h.row, hnew⟩

theorem idle (h : Provisioned s i pr orgName o) :
    Provisioned (s.setHandler i none) i pr orgName o :=
  h.setHandler (handlerAt_idle s i pr orgName _)

variable {hd : Handler}

theorem next (h : Provisioned s i pr orgName o) (hpr : hd.pr = pr)
    (hname : hd.orgName = orgName) {next : Option Phase}
    (hnext : ∀ phase ∈ next, phase.renews o.id) :
    Provisioned (s.setHandler i (next.map fun phase => { hd with phase := phase })) i pr orgName
      o :=
  h.setHandler (handlerAt_next hpr hname hnext)

theorem upsert (h : Provisioned s i pr orgName o) (hpr : hd.pr = pr)
    (hname : hd.orgName = orgName) (fate : Fate) {written : System}
    (hwritten : s.upsertNamespace hd.pr o.id hd.orgName = some written) :
    Provisioned (s.afterWrite i hd fate written none) i pr orgName o := by
  unfold System.upsertNamespace at hwritten
  split_ifs at hwritten
  cases hwritten
  have hnew : Provisioned
      { s with
        namespaces :=
          update s.namespaces hd.pr (⟨some o.id, hd.orgName, true⟩ :: s.namespaces hd.pr) }
      i pr orgName o := by
    refine ⟨h.found, ⟨s.namespaces pr, ?_⟩, h.handler⟩
    rw [hpr, hname]
    exact update_self _ _ _
  exact afterWrite_keeps (P := (Provisioned · i pr orgName o)) fate h.idle hnew.idle
    fun _ => hnew.idle

theorem call (h : Provisioned s i pr orgName o) (hi : s.handlers i = some hd)
    (fate : Fate) (stale : Nat) : Provisioned (s.call i hd fate stale) i pr orgName o := by
  obtain ⟨hpr, hname, hphase⟩ := h.handler hd hi
  unfold System.call
  dsimp only
  cases hp : hd.phase with
  | lookupOrg =>
    refine afterRead_keeps (P := (Provisioned · i pr orgName o)) fate h.idle (h.next hpr hname ?_)
    rw [hname, h.found]
    intro phase hnext
    cases hnext
    trivial
  | getNamespace existing =>
    refine afterRead_keeps (P := (Provisioned · i pr orgName o)) fate h.idle (h.next hpr hname ?_)
    intro phase hnext
    split_ifs at hnext
    · cases hnext
      trivial
    · cases hnext
  | getOrCreateOrg =>
    have hfound : s.getOrCreateOrg hd.orgName (.provision hd.pr) = (s, o.id) := by
      unfold System.getOrCreateOrg
      rw [hname, h.found]
    rw [hfound]
    refine afterWrite_keeps (P := (Provisioned · i pr orgName o)) fate h.idle h.idle
      fun _ => h.next hpr hname ?_
    intro phase hnext
    cases hnext
    rfl
  | upsert orgID =>
    have horg : orgID = o.id := by
      rw [hp] at hphase
      exact hphase
    dsimp only
    cases hwritten : s.upsertNamespace hd.pr orgID hd.orgName with
    | none => exact h.idle
    | some written =>
      rw [horg] at hwritten
      exact h.upsert hpr hname fate hwritten
  | _ => rw [hp] at hphase; exact hphase.elim

end Provisioned

def Phase.refuses : Phase → Prop
  | .lookupOrg => True
  | .getNamespace _ => True
  | _ => False

structure Orphaned (s : System) (i : Nat) (pr : Pr) (orgName : String) : Prop where
  found : ∃ o, s.findOrg orgName = some o
  row : s.namespaces pr = []
  handler : HandlerAt s i pr orgName Phase.refuses

namespace Orphaned

variable {pr : Pr}

theorem setHandler (h : Orphaned s i pr orgName) {new : Option Handler}
    (hnew : HandlerAt (s.setHandler i new) i pr orgName Phase.refuses) :
    Orphaned (s.setHandler i new) i pr orgName :=
  ⟨h.found, h.row, hnew⟩

theorem idle (h : Orphaned s i pr orgName) : Orphaned (s.setHandler i none) i pr orgName :=
  h.setHandler (handlerAt_idle s i pr orgName _)

theorem call (h : Orphaned s i pr orgName) {hd : Handler} (hi : s.handlers i = some hd)
    (fate : Fate) (stale : Nat) : Orphaned (s.call i hd fate stale) i pr orgName := by
  obtain ⟨hpr, hname, hphase⟩ := h.handler hd hi
  obtain ⟨o, ho⟩ := h.found
  unfold System.call
  dsimp only
  cases hp : hd.phase with
  | lookupOrg =>
    refine afterRead_keeps (P := (Orphaned · i pr orgName)) fate h.idle
      (h.setHandler (handlerAt_next hpr hname ?_))
    rw [hname, ho]
    intro phase hnext
    cases hnext
    trivial
  | getNamespace existing =>
    refine afterRead_keeps (P := (Orphaned · i pr orgName)) fate h.idle
      (h.setHandler (handlerAt_next hpr hname ?_))
    rw [hpr, h.row]
    intro phase hnext
    cases hnext
  | _ => rw [hp] at hphase; exact hphase.elim

end Orphaned

variable {acts : List Action}

theorem run_keeps {P : System → Prop} (target : String)
    (hname : deriveOrgName e.name e.number = some orgName) (hkind : e.kind = .opened)
    (hdeliver : ∀ s, P s → P (s.setHandler i (some ⟨e.pr, orgName, .lookupOrg⟩)))
    (hcall : ∀ s hd fate stale, P s → s.handlers i = some hd → P (s.call i hd fate stale))
    (hacts : ∀ a ∈ acts, a = .deliver i e ∨ ∃ fate stale, a = .step i fate stale) (hs : P s) :
    P (run (System.step · target) s acts) := by
  refine run_invariant ?_ hs (guarded_of_forall hacts)
  rintro s a hP (rfl | ⟨fate, stale, rfl⟩)
  · cases hi : s.handlers i with
    | some hd =>
      unfold System.step
      dsimp only
      rw [hi]
      exact hP
    | none =>
      rw [step_deliver hi hname hkind]
      exact hdeliver s hP
  · cases hi : s.handlers i with
    | none =>
      rw [step_idle hi]
      exact hP
    | some hd =>
      rw [step_step hi]
      exact hcall s hd fate stale hP hi

theorem Attempt.fate_ne_ok (a : Attempt) : a.fate ≠ .ok := by
  unfold Attempt.fate
  cases a.carriedOut <;> decide

theorem mem_attempt_acts (attempt : Attempt) {a : Action} (h : a ∈ attempt.acts i e) :
    a = .deliver i e ∨ ∃ fate stale, a = .step i fate stale := by
  unfold Attempt.acts at h
  rcases mem_cons.mp h with rfl | h
  · exact Or.inl rfl
  · rcases mem_append.mp h with h | h
    · obtain ⟨stale, _, rfl⟩ := mem_map.mp h
      exact Or.inr ⟨.ok, stale, rfl⟩
    · rw [mem_singleton.mp h]
      exact Or.inr ⟨_, _, rfl⟩

theorem mem_redelivery {stale : Fin 4 → Nat} {a : Action} (h : a ∈ redelivery i e stale) :
    a = .deliver i e ∨ ∃ fate stale, a = .step i fate stale := by
  rcases mem_cons.mp h with rfl | h
  · exact Or.inl rfl
  · obtain ⟨k, _, rfl⟩ := mem_map.mp h
    exact Or.inr ⟨.ok, stale k, rfl⟩

theorem Provisioned.run {o : Org} (h : Provisioned s i e.pr orgName o) (target : String)
    (hname : deriveOrgName e.name e.number = some orgName) (hkind : e.kind = .opened)
    (hacts : ∀ a ∈ acts, a = .deliver i e ∨ ∃ fate stale, a = .step i fate stale) :
    Provisioned (run (System.step · target) s acts) i e.pr orgName o :=
  run_keeps (P := (Provisioned · i e.pr orgName o)) target hname hkind
    (fun s hs => hs.setHandler (handlerAt_lookup s i e.pr orgName trivial))
    (fun _ _ fate stale hs hi => hs.call hi fate stale) hacts h

theorem Orphaned.run (h : Orphaned s i e.pr orgName) (target : String)
    (hname : deriveOrgName e.name e.number = some orgName) (hkind : e.kind = .opened)
    (hacts : ∀ a ∈ acts, a = .deliver i e ∨ ∃ fate stale, a = .step i fate stale) :
    Orphaned (run (System.step · target) s acts) i e.pr orgName :=
  run_keeps (P := (Orphaned · i e.pr orgName)) target hname hkind
    (fun s hs => hs.setHandler (handlerAt_lookup s i e.pr orgName trivial))
    (fun _ _ fate stale hs hi => hs.call hi fate stale) hacts h

structure Before (s : System) (i : Nat) (pr : Pr) (orgName : String) (org : Option Org)
    (phase : Option Phase) : Prop where
  found : s.findOrg orgName = org
  row : s.namespaces pr = []
  handler : s.handlers i = phase.map (⟨pr, orgName, ·⟩)

namespace Before

variable {pr : Pr}

theorem setHandler {org : Option Org} {phase : Option Phase} (h : Before s i pr orgName org phase)
    (next : Option Phase) :
    Before (s.setHandler i (next.map (⟨pr, orgName, ·⟩))) i pr orgName org next :=
  ⟨h.found, h.row, handlers_setHandler s i _⟩

theorem orphaned {o : Org} (h : Before s i pr orgName (some o) none) : Orphaned s i pr orgName := by
  refine ⟨⟨o, h.found⟩, h.row, ?_⟩
  intro hd hhd
  rw [h.handler] at hhd
  cases hhd

theorem deliver (target : String) {org : Option Org} (h : Before s i e.pr orgName org none)
    (hname : deriveOrgName e.name e.number = some orgName) (hkind : e.kind = .opened) :
    Before (s.step target (.deliver i e)) i e.pr orgName org (some .lookupOrg) := by
  rw [step_deliver h.handler hname hkind]
  exact h.setHandler (some .lookupOrg)

theorem lookup (target : String) (h : Before s i pr orgName none (some .lookupOrg)) (fate : Fate)
    (stale : Nat) :
    Before (s.step target (.step i fate stale)) i pr orgName none
      (if fate = .ok then some .getOrCreateOrg else none) := by
  rw [step_step h.handler]
  unfold System.call
  dsimp only
  rw [h.found]
  cases fate with
  | ok => exact h.setHandler (some .getOrCreateOrg)
  | lost | failed => exact h.setHandler none

def inserted (s : System) (pr : Pr) (orgName : String) : Org := ⟨s.nextID, orgName, .provision pr⟩

theorem getOrCreate (target : String) (h : Before s i pr orgName none (some .getOrCreateOrg))
    (stale : Nat) :
    Before (s.step target (.step i .ok stale)) i pr orgName (some (inserted s pr orgName))
        (some (.upsert (inserted s pr orgName).id)) ∧
      Before (s.step target (.step i .lost stale)) i pr orgName (some (inserted s pr orgName))
        none ∧
      Before (s.step target (.step i .failed stale)) i pr orgName none none := by
  have hnew : s.getOrCreateOrg orgName (.provision pr) =
      ({ s with orgs := s.orgs ++ [inserted s pr orgName], nextID := s.nextID + 1 }, s.nextID) := by
    unfold System.getOrCreateOrg
    rw [h.found]
    rfl
  have hwritten : Before
      { s with orgs := s.orgs ++ [inserted s pr orgName], nextID := s.nextID + 1 }
      i pr orgName (some (inserted s pr orgName)) (some .getOrCreateOrg) := by
    refine ⟨?_, h.row, h.handler⟩
    have hnone : s.orgs.find? (fun o => o.name = orgName) = none := h.found
    show (s.orgs ++ [inserted s pr orgName]).find? (fun o => o.name = orgName) = _
    rw [List.find?_append, hnone]
    simp [inserted]
  rw [step_step h.handler, step_step h.handler, step_step h.handler]
  unfold System.call
  dsimp only
  rw [hnew]
  exact ⟨hwritten.setHandler (some (.upsert (inserted s pr orgName).id)), hwritten.setHandler none,
    h.setHandler none⟩

theorem upsert (target : String) {o : Org}
    (h : Before s i pr orgName (some o) (some (.upsert o.id))) (stale : Nat) :
    (∀ fate, fate ≠ .failed → Provisioned (s.step target (.step i fate stale)) i pr orgName o) ∧
      Before (s.step target (.step i .failed stale)) i pr orgName (some o) none := by
  have hany : s.orgs.any (fun o' => o'.id = o.id) = true :=
    any_eq_true.mpr ⟨o, mem_of_find?_eq_some h.found, by simp⟩
  have hwritten : s.upsertNamespace pr o.id orgName =
      some { s with
        namespaces :=
          update s.namespaces pr (⟨some o.id, orgName, true⟩ :: s.namespaces pr) } :=
    if_pos hany
  have hidle : ∀ s' : System, s'.orgs = s.orgs → s'.namespaces = update s.namespaces pr
        (⟨some o.id, orgName, true⟩ :: s.namespaces pr) →
      Provisioned (s'.setHandler i none) i pr orgName o := by
    intro s' horgs hrows
    refine ⟨?_, ⟨s.namespaces pr, ?_⟩, handlerAt_idle s' i pr orgName _⟩
    · show s'.orgs.find? _ = _
      rw [horgs]
      exact h.found
    · show s'.namespaces pr = _
      rw [hrows, update_self]
  simp only [step_step h.handler, System.call, hwritten]
  constructor
  · intro fate hfate
    cases fate with
    | ok | lost => exact hidle _ rfl rfl
    | failed => exact absurd rfl hfate
  · exact h.setHandler none

end Before

theorem Before.provision (target : String) (h : Before s i e.pr orgName none none)
    (hname : deriveOrgName e.name e.number = some orgName) (hkind : e.kind = .opened)
    (x y z : Nat) :
    ∃ o, Provisioned (run (System.step · target) s
        [.deliver i e, .step i .ok x, .step i .ok y, .step i .ok z]) i e.pr orgName o := by
  have hlookup := (h.deliver target hname hkind).lookup target .ok x
  have hinsert := (hlookup.getOrCreate target y).1
  exact ⟨_, (hinsert.upsert target z).1 .ok (by decide)⟩

theorem Before.attempt (target : String) (h : Before s i e.pr orgName none none)
    (hname : deriveOrgName e.name e.number = some orgName) (hkind : e.kind = .opened)
    (a : Attempt) :
    (a.insertsOrg = false ∧
        Before (run (System.step · target) s (a.acts i e)) i e.pr orgName none none) ∨
      (a.insertsOrg = true ∧ a.storesRow = true ∧
        ∃ o, Provisioned (run (System.step · target) s (a.acts i e)) i e.pr orgName o) ∨
      (a.insertsOrg = true ∧ a.storesRow = false ∧
        Orphaned (run (System.step · target) s (a.acts i e)) i e.pr orgName) := by
  obtain ⟨oks, carriedOut, stale⟩ := a
  have hdeliver := h.deliver target hname hkind
  match oks with
  | [] =>
    -- the look-up is stopped
    have hlookup := hdeliver.lookup target (Attempt.fate ⟨[], carriedOut, stale⟩) stale
    rw [if_neg (Attempt.fate_ne_ok _)] at hlookup
    exact Or.inl ⟨rfl, hlookup⟩
  | [x] =>
    -- the get-or-create is stopped
    obtain ⟨_, hlost, hfailed⟩ := (hdeliver.lookup target .ok x).getOrCreate target stale
    cases carriedOut with
    | true => exact Or.inr (Or.inr ⟨rfl, rfl, hlost.orphaned⟩)
    | false => exact Or.inl ⟨rfl, hfailed⟩
  | [x, y] =>
    -- the upsert is stopped
    have hinsert := ((hdeliver.lookup target .ok x).getOrCreate target y).1
    obtain ⟨hstored, hfailed⟩ := hinsert.upsert target stale
    cases carriedOut with
    | true => exact Or.inr (Or.inl ⟨rfl, rfl, _, hstored .lost (by decide)⟩)
    | false => exact Or.inr (Or.inr ⟨rfl, rfl, hfailed.orphaned⟩)
  | x :: y :: z :: rest =>
    obtain ⟨o, hprovisioned⟩ := h.provision target hname hkind x y z
    refine Or.inr (Or.inl ⟨by simp [Attempt.insertsOrg], by simp [Attempt.storesRow], o,
      hprovisioned.run target hname hkind fun a ha => ?_⟩)
    refine mem_attempt_acts ⟨x :: y :: z :: rest, carriedOut, stale⟩ ?_
    exact mem_append_right [.deliver i e, .step i .ok x, .step i .ok y, .step i .ok z] ha

/-- **When a redelivery provisions the pull request.** -/
theorem provision_converges_iff (s : System) (target : String) (i : Nat) (e : Event)
    (orgName : String) (hkind : e.kind = .opened)
    (hname : deriveOrgName e.name e.number = some orgName) (hidle : s.handlers i = none)
    (horg : s.findOrg orgName = none) (hrow : s.namespaces e.pr = []) (attempts : List Attempt)
    (stale : Fin 4 → Nat) :
    Converged (run (System.step · target) s
          (attempts.flatMap (Attempt.acts i e) ++ redelivery i e stale)) e.pr orgName ↔
      ∀ a, attempts.find? Attempt.insertsOrg = some a → a.storesRow = true := by
  have hbefore : Before s i e.pr orgName none none := ⟨horg, hrow, hidle⟩
  clear hidle horg hrow
  induction attempts generalizing s with
  | nil =>
    refine ⟨fun _ a ha => (by cases ha), fun _ => ?_⟩
    obtain ⟨o, hprovisioned⟩ := hbefore.provision target hname hkind (stale 0) (stale 1) (stale 2)
    have hlast : ∀ a ∈ [Action.step i .ok (stale 3)],
        a = .deliver i e ∨ ∃ fate stale, a = .step i fate stale :=
      fun a ha => Or.inr ⟨_, _, mem_singleton.mp ha⟩
    have hfinal := hprovisioned.run target hname hkind hlast
    exact ⟨o, hfinal.found, hfinal.row⟩
  | cons a attempts ih =>
    have hlater : ∀ b ∈ attempts.flatMap (Attempt.acts i e) ++ redelivery i e stale,
        b = .deliver i e ∨ ∃ fate stale, b = .step i fate stale := by
      intro b hb
      rcases mem_append.mp hb with hb | hb
      · obtain ⟨attempt, _, hmem⟩ := mem_flatMap.mp hb
        exact mem_attempt_acts attempt hmem
      · exact mem_redelivery hb
    rw [flatMap_cons, append_assoc, run_append]
    rcases hbefore.attempt target hname hkind a with ⟨hinserts, hnothing⟩ |
      ⟨hinserts, hstores, o, hprovisioned⟩ | ⟨hinserts, hstores, horphaned⟩
    · rw [List.find?_cons_of_neg (by rw [hinserts]; exact Bool.false_ne_true)]
      exact ih _ hnothing
    · rw [List.find?_cons_of_pos hinserts]
      have hfinal := hprovisioned.run target hname hkind hlater
      refine ⟨fun _ b hb => ?_, fun _ => ⟨o, hfinal.found, hfinal.row⟩⟩
      cases hb
      exact hstores
    · -- the row is never stored
      rw [List.find?_cons_of_pos hinserts]
      have hfinal := horphaned.run target hname hkind hlater
      constructor
      · rintro ⟨o, _, rest, hrow⟩
        rw [hfinal.row] at hrow
        cases hrow
      · intro hall
        have hcontra := hall a rfl
        rw [hstores] at hcontra
        cases hcontra

theorem provision_converges_lost_upsert :
    Converged (run (System.step · "") System.empty
        ([⟨[0, 0], true, 0⟩].flatMap (Attempt.acts 1 (opened "acme/app" "app")) ++
          redelivery 1 (opened "acme/app" "app") fun _ => 0)) ⟨"acme/app", 1⟩ "pr-app-1" := by
  refine (provision_converges_iff System.empty "" 1 (opened "acme/app" "app") "pr-app-1" rfl
    (by decide +kernel) rfl rfl rfl [⟨[0, 0], true, 0⟩] fun _ => 0).mpr ?_
  intro a ha
  cases ha
  rfl

/-- **After one failed upsert, a redelivery stores no row.** -/
theorem provision_stuck :
    ¬ Converged (run (System.step · "") System.empty
        ([⟨[0, 0], false, 0⟩].flatMap (Attempt.acts 1 (opened "acme/app" "app")) ++
          redelivery 1 (opened "acme/app" "app") fun _ => 0)) ⟨"acme/app", 1⟩ "pr-app-1" := by
  rintro ⟨o, _, rest, hrow⟩
  have hnone : (run (System.step · "") System.empty
      ([⟨[0, 0], false, 0⟩].flatMap (Attempt.acts 1 (opened "acme/app" "app")) ++
        redelivery 1 (opened "acme/app" "app") fun _ => 0)).namespaces ⟨"acme/app", 1⟩ = [] := rfl
  rw [hnone] at hrow
  cases hrow

end Attempts

end OciJanus.Metadata.PrRegistry
