import OciJanus.Verified.Utf8
import Mathlib.Data.List.Infix

/-!
# Functions of Go's `strings` and `unicode` packages

Strings are handled through their characters. Only `len` counts bytes.
-/

namespace OciJanus.Verified.GoStrings

open Verified.Utf8 List

def byteLen (s : String) : Nat := (stringBytes s).length

def hasPrefix (s p : String) : Bool := p.toList.isPrefixOf s.toList

def hasSuffix (s p : String) : Bool := p.toList.isSuffixOf s.toList

def contains (s p : String) : Bool := s.toList.tails.any fun t => p.toList.isPrefixOf t

variable {s p org : String}

theorem hasPrefix_iff : hasPrefix s p = true ↔ ∃ t, s = p ++ t := by
  rw [hasPrefix, isPrefixOf_iff_prefix]
  constructor
  · rintro ⟨t, ht⟩
    refine ⟨String.ofList t, String.toList_inj.mp ?_⟩
    simp [String.toList_append, ht]
  · rintro ⟨t, rfl⟩
    exact ⟨t.toList, by simp [String.toList_append]⟩

theorem hasSuffix_iff : hasSuffix s p = true ↔ ∃ t, s = t ++ p := by
  rw [hasSuffix, isSuffixOf_iff_suffix]
  constructor
  · rintro ⟨t, ht⟩
    refine ⟨String.ofList t, String.toList_inj.mp ?_⟩
    simp [String.toList_append, ht]
  · rintro ⟨t, rfl⟩
    exact ⟨t.toList, by simp [String.toList_append]⟩

def isSpace (c : Char) : Bool :=
  let n := c.toNat
  (9 ≤ n && n ≤ 13) || n == 0x20 || n == 0x85 || n == 0xA0 || n == 0x1680 ||
    (0x2000 ≤ n && n ≤ 0x200A) || n == 0x2028 || n == 0x2029 || n == 0x202F ||
    n == 0x205F || n == 0x3000

def isControl (c : Char) : Bool := c.toNat < 32 || (127 ≤ c.toNat && c.toNat < 160)

def trimSpace (s : String) : String :=
  String.ofList ((s.toList.dropWhile isSpace).reverse.dropWhile isSpace).reverse

def fields (s : String) : List String :=
  ((s.toList.splitOnP isSpace).filter (· ≠ [])).map String.ofList

def splitOn (c : Char) (s : String) : List String :=
  (s.toList.splitOn c).map String.ofList

def cut (c : Char) (s : String) : Option (String × String) :=
  match s.toList.dropWhile (· != c) with
  | [] => none
  | _ :: rest => some (String.ofList (s.toList.takeWhile (· != c)), String.ofList rest)

variable {c : Char}

theorem cut_append {a b : List Char} (h : c ∉ a) :
    cut c (String.ofList (a ++ c :: b)) = some (String.ofList a, String.ofList b) := by
  have hne : ∀ x ∈ a, (x != c) = true := by
    intro x hx
    simp only [bne_iff_ne, ne_eq]
    intro hxc
    exact h (hxc ▸ hx)
  unfold cut
  rw [String.toList_ofList, dropWhile_append_of_pos hne, takeWhile_append_of_pos hne]
  simp

theorem notMem_of_cut {a b : String} (h : cut c s = some (a, b)) : c ∉ a.toList := by
  unfold cut at h
  split at h
  · cases h
  · simp only [Option.some.injEq, Prod.mk.injEq] at h
    rw [← h.1, String.toList_ofList]
    intro hmem
    have hne := all_eq_true.mp all_takeWhile c hmem
    simp at hne

theorem fullName_eq (org name : String) :
    org ++ "/" ++ name = String.ofList (org.toList ++ '/' :: name.toList) := by
  apply String.toList_inj.mp
  simp

theorem cut_toList {a b : String} (h : cut c s = some (a, b)) :
    s.toList = a.toList ++ c :: b.toList := by
  unfold cut at h
  split at h
  · cases h
  · rename_i x rest hdrop
    rw [Option.some.injEq, Prod.mk.injEq] at h
    obtain ⟨rfl, rfl⟩ := h
    obtain rfl : x = c := by
      have hhead := List.head?_dropWhile_not (· != c) s.toList
      rw [hdrop] at hhead
      simpa using hhead
    rw [String.toList_ofList, String.toList_ofList, ← hdrop, takeWhile_append_dropWhile]

theorem cut_getD (c : Char) (s : String) :
    ((cut c s).map (·.1)).getD s = String.ofList (s.toList.takeWhile (· != c)) := by
  unfold cut
  split
  · rename_i hdrop
    have happend := takeWhile_append_dropWhile (p := (· != c)) (l := s.toList)
    rw [hdrop, append_nil] at happend
    simp [happend]
  · rfl

theorem cut_eq_some {name full : String} (h : cut '/' full = some (org, name)) :
    full = org ++ "/" ++ name ∧ '/' ∉ org.toList :=
  ⟨by rw [fullName_eq, ← cut_toList h, String.ofList_toList], notMem_of_cut h⟩

theorem trim_of_ends {p : Char → Bool} {cs : List Char} (hhead : ∀ c ∈ cs.head?, p c = false)
    (hlast : ∀ c ∈ cs.getLast?, p c = false) :
    ((cs.dropWhile p).reverse.dropWhile p).reverse = cs := by
  have hdrop (l : List Char) (hl : ∀ c ∈ l.head?, p c = false) : l.dropWhile p = l := by
    cases l with
    | nil => rfl
    | cons c l => exact dropWhile_cons_of_neg (by simp [hl c rfl])
  rw [hdrop cs hhead, hdrop, reverse_reverse]
  rwa [List.head?_reverse]

theorem cut_fullName (h : '/' ∉ org.toList) (name : String) :
    cut '/' (org ++ "/" ++ name) = some (org, name) := by
  rw [fullName_eq, cut_append h, String.ofList_toList, String.ofList_toList]

theorem fullName_inj {org' name name' : String} (horg : '/' ∉ org.toList)
    (horg' : '/' ∉ org'.toList) (h : org ++ "/" ++ name = org' ++ "/" ++ name') :
    org = org' ∧ name = name' := by
  have hcut := congrArg (cut '/') h
  rw [cut_fullName horg, cut_fullName horg', Option.some.injEq, Prod.mk.injEq] at hcut
  exact hcut

def trimPrefix (s p : String) : String :=
  if hasPrefix s p then String.ofList (s.toList.drop p.toList.length) else s

@[simp] theorem trimPrefix_append (p t : String) : trimPrefix (p ++ t) p = t := by
  unfold trimPrefix
  rw [if_pos (hasPrefix_iff.mpr ⟨t, rfl⟩)]
  apply String.toList_inj.mp
  simp [String.toList_append]

theorem exists_mem_splitOnP {α : Type*} {p : α → Bool} {c : α} (hc : p c = false) {l : List α}
    (h : c ∈ l) : ∃ part ∈ l.splitOnP p, c ∈ part := by
  induction l with
  | nil => cases h
  | cons x xs ih =>
    rw [splitOnP_cons_eq_if_modifyHead]
    split_ifs with hx
    · have hmem : c ∈ xs := by
        rcases mem_cons.mp h with rfl | hmem
        · rw [hc] at hx
          cases hx
        · exact hmem
      obtain ⟨part, hpart, hcpart⟩ := ih hmem
      exact ⟨part, mem_cons_of_mem _ hpart, hcpart⟩
    · cases hparts : xs.splitOnP p with
      | nil => exact absurd hparts (splitOnP_ne_nil p xs)
      | cons q qs =>
        rw [modifyHead_cons]
        rcases mem_cons.mp h with rfl | hmem
        · exact ⟨c :: q, by simp, by simp⟩
        · obtain ⟨part, hpart, hcpart⟩ := ih hmem
          rw [hparts] at hpart
          rcases mem_cons.mp hpart with rfl | hpart
          · exact ⟨x :: part, by simp, by simp [hcpart]⟩
          · exact ⟨part, by simp [hpart], hcpart⟩

def takeBytes (n : Nat) (s : String) : Option String :=
  ((List.range (s.toList.length + 1)).map fun k => String.ofList (s.toList.take k)).find?
    fun t => byteLen t = n

def parseDigits (ds : List Char) : Option Nat :=
  if ds ≠ [] ∧ ds.all Char.isDigit then some (Nat.ofDigitChars 10 ds 0) else none

def parseInt (bitSize : Nat) (s : String) : Option Int :=
  match s.toList with
  | '-' :: ds => ((parseDigits ds).filter (· ≤ Nat.pow 2 (bitSize - 1))).map fun n => -(n : Int)
  | '+' :: ds => ((parseDigits ds).filter (· < Nat.pow 2 (bitSize - 1))).map fun n => (n : Int)
  | ds => ((parseDigits ds).filter (· < Nat.pow 2 (bitSize - 1))).map fun n => (n : Int)

theorem append_segment_inj {α : Type*} {sep : α} {a b a' b' : List α} (hb : sep ∉ b)
    (hb' : sep ∉ b') (h : a ++ sep :: b = a' ++ sep :: b') : a = a' ∧ b = b' := by
  rcases append_eq_append_iff.mp h with ⟨c, ha, hc⟩ | ⟨c, ha, hc⟩
  · cases c with
    | nil => exact ⟨by simpa using ha.symm, by simpa using hc⟩
    | cons x c =>
      -- a second separator would stand inside `b`
      rw [cons_append] at hc
      obtain ⟨_, rfl⟩ := List.cons.inj hc
      exact absurd (by simp) hb
  · cases c with
    | nil => exact ⟨by simpa using ha, by simpa using hc.symm⟩
    | cons x c =>
      rw [cons_append] at hc
      obtain ⟨_, rfl⟩ := List.cons.inj hc
      exact absurd (by simp) hb'

theorem notMem_repr (hc : c.isDigit = false) (n : Nat) : c ∉ (Nat.repr n).toList := by
  intro hmem
  rw [Nat.repr, String.toList_ofList] at hmem
  have hdigit := Nat.isDigit_of_mem_toDigits (by decide) (by decide) hmem
  rw [hc] at hdigit
  cases hdigit

end OciJanus.Verified.GoStrings
