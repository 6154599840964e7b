import OciJanus.Verified.GoStrings
import OciJanus.Verified.KeyedTable
import Mathlib.Data.List.Sort
import Mathlib.Data.String.Basic

/-!
# Tag listing

registry-core puts the cursor into `page_token`, which registry-metadata does not read, so every
page is the first one.
-/

namespace OciJanus.Core.TagList

open Verified Sha256 Utf8 GoStrings KeyedTable List

structure Collation where
  lt : String → String → Bool
  irrefl : ∀ a, lt a a = false
  trans : ∀ a b c, lt a b = true → lt b c = true → lt a c = true
  total : ∀ a b, a ≠ b → lt a b = true ∨ lt b a = true

namespace Collation

variable (c : Collation)

def Less (a b : String) : Prop := c.lt a b = true

def Le (a b : String) : Prop := c.lt b a = false

instance : DecidableRel c.Less := fun a b => by
  unfold Less
  infer_instance

instance : DecidableRel c.Le := fun a b => by
  unfold Le
  infer_instance

variable {c}

theorem Less.not_lt {a b : String} (h : c.Less a b) : c.lt b a = false := by
  cases hba : c.lt b a with
  | false => rfl
  | true =>
    have haa := c.trans a b a h hba
    rw [c.irrefl] at haa
    cases haa

instance : Std.Asymm c.Less := ⟨fun a b hab hba => by
  have hnot := Less.not_lt hab
  rw [show c.lt b a = true from hba] at hnot
  cases hnot⟩

theorem Le.less_of_ne {a b : String} (h : c.Le a b) (hne : a ≠ b) : c.Less a b := by
  rcases c.total a b hne with hab | hba
  · exact hab
  · rw [show c.lt b a = false from h] at hba
    cases hba

instance : Std.Total c.Le := ⟨fun a b => by
  by_cases hab : c.Le a b
  · exact Or.inl hab
  · exact Or.inr (Less.not_lt (show c.Less b a by simpa [Le, Less] using hab))⟩

instance : IsTrans String c.Le := ⟨fun a b d hab hbd => by
  by_cases h₁ : a = b
  · rw [h₁]
    exact hbd
  · by_cases h₂ : b = d
    · rw [← h₂]
      exact hab
    · exact Less.not_lt (c.trans a b d (hab.less_of_ne h₁) (hbd.less_of_ne h₂))⟩

end Collation

structure TagRow where
  (repoID tenantID name : String)

abbrev Tags := Table TagRow (String × String) fun t => (t.repoID, t.name)

def tagNames (tags : Tags) (tenantID repoID : String) : List String :=
  (tags.rows.filter fun t => t.repoID = repoID ∧ t.tenantID = tenantID).map (·.name)

def listTags (c : Collation) (tags : Tags) (tenantID repoID : String) (pageSize : Int)
    (last : String) : List String :=
  let found := (tagNames tags tenantID repoID).filter fun name => last = "" ∨ c.Less last name
  let ordered := found.insertionSort c.Le
  if 0 < pageSize then ordered.take pageSize.toNat else ordered

structure ListTagsRequest where
  (repoID tenantID : String)
  pageToken : String := ""
  pageSize : Int := 0
  last : String := ""

def handleListTags (c : Collation) (tags : Tags) (req : ListTagsRequest) : List String :=
  listTags c tags req.tenantID req.repoID req.pageSize req.last

structure Repo where
  collation : Collation
  tags : Tags
  (tenantID repoID name : String)

structure Query where
  n : String
  last : Bytes

def registryListTags (r : Repo) (n : Int) (last : Bytes) : Option (List String) :=
  let cursor := String.ofList (decodeUtf8 last)
  if stringBytes cursor = last then
    some (handleListTags r.collation r.tags
      { repoID := r.repoID, tenantID := r.tenantID, pageSize := n, pageToken := cursor })
  else none

def pageSize (n : String) : Int :=
  match parseInt 32 n with
  | some v => if 0 < v then v else 100
  | none => 100

structure Page where
  tags : List String
  link : Option String

def nextLink (name nextLast : String) (n : Int) : String :=
  "</v2/" ++ name ++ "/tags/list?last=" ++ nextLast ++ "&n=" ++ toString n ++ ">; rel=\"next\""

def handleTagsList (r : Repo) (q : Query) : Option Page :=
  match registryListTags r (pageSize q.n) q.last with
  | none => none
  | some tags =>
    some ⟨tags, if (tags.length : Int) = pageSize q.n ∧ 0 < pageSize q.n then
        tags.getLast?.map fun nextLast => nextLink r.name nextLast (pageSize q.n)
      else none⟩

def hexValue (b : UInt8) : Option UInt8 :=
  if 0x30 ≤ b ∧ b ≤ 0x39 then some (b - 0x30)
  else if 0x41 ≤ b ∧ b ≤ 0x46 then some (b - 0x37)
  else if 0x61 ≤ b ∧ b ≤ 0x66 then some (b - 0x57)
  else none

def queryUnescape : Bytes → Option Bytes
  | [] => some []
  | 0x25 :: hi :: lo :: rest =>
    match hexValue hi, hexValue lo, queryUnescape rest with
    | some hi, some lo, some rest => some ((hi * 16 + lo) :: rest)
    | _, _, _ => none
  | 0x25 :: _ => none
  | 0x2B :: rest => (queryUnescape rest).map (0x20 :: ·)
  | b :: rest => (queryUnescape rest).map (b :: ·)

def queryGet (query key : String) : Bytes :=
  let pairs := (splitOn '&' query).filterMap fun pair =>
    if pair = "" ∨ ';' ∈ pair.toList then none
    else
      let (k, v) := (cut '=' pair).getD (pair, "")
      match queryUnescape (stringBytes k), queryUnescape (stringBytes v) with
      | some k, some v => some (k, v)
      | _, _ => none
  ((pairs.find? fun p => p.1 = stringBytes key).map (·.2)).getD []

def before (c : Char) (s : String) : String := ((cut c s).map (·.1)).getD s

def after (c : Char) (s : String) : String := ((cut c s).map (·.2)).getD ""

def followLink (link : String) : Query :=
  let query := before '#' (after '?' (before '>' (after '<' link)))
  ⟨String.ofList (decodeUtf8 (queryGet query "n")), queryGet query "last"⟩

def walk (r : Repo) : Nat → Query → Option (List String)
  | 0, _ => none
  | fuel + 1, q =>
    match handleTagsList r q with
    | none => none
    | some page =>
      match page.link with
      | none => some page.tags
      | some link => (walk r fuel (followLink link)).map (page.tags ++ ·)

def firstQuery (n : Nat) : Query := ⟨Nat.repr n, []⟩

def Complete (r : Repo) (n : Nat) : Prop :=
  ∃ fuel listed, walk r fuel (firstQuery n) = some listed ∧
    listed.Pairwise r.collation.Less ∧ listed.Perm (tagNames r.tags r.tenantID r.repoID)

section Metadata

variable {c : Collation} {tags : Tags} {tenantID repoID : String}

theorem nodup_tagNames (tags : Tags) (tenantID repoID : String) :
    (tagNames tags tenantID repoID).Nodup := by
  unfold tagNames
  refine List.Nodup.map_on ?_ ?_
  · intro t ht u hu hname
    obtain ⟨ht, htp⟩ := mem_filter.mp ht
    obtain ⟨hu, hup⟩ := mem_filter.mp hu
    refine tags.eq_of_key_eq ht hu ?_
    have hrepo := (of_decide_eq_true htp).1.trans (of_decide_eq_true hup).1.symm
    exact Prod.ext hrepo hname
  · exact (List.Nodup.of_map _ tags.nodup).filter _

def orderedNames (c : Collation) (tags : Tags) (tenantID repoID : String) : List String :=
  (tagNames tags tenantID repoID).insertionSort c.Le

theorem insertionSort_less {names : List String} (h : names.Nodup) :
    (names.insertionSort c.Le).Pairwise c.Less := by
  have hle := pairwise_insertionSort c.Le names
  have hne := (perm_insertionSort c.Le names).nodup_iff.mpr h
  exact (hle.and hne).imp fun h => h.1.less_of_ne h.2

theorem orderedNames_less : (orderedNames c tags tenantID repoID).Pairwise c.Less :=
  insertionSort_less (nodup_tagNames tags tenantID repoID)

variable {n : Nat}

theorem listTags_covers (hn : 0 < n) {last name : String}
    (hname : name ∈ tagNames tags tenantID repoID) (hafter : last = "" ∨ c.Less last name) :
    name ∈ listTags c tags tenantID repoID n last ∨
      (listTags c tags tenantID repoID n last).length = n ∧
        ∀ l ∈ (listTags c tags tenantID repoID n last).getLast?, c.Less l name := by
  have hpos : (0 : Int) < n := by omega
  unfold listTags
  simp only [hpos, if_true, Int.toNat_natCast]
  have hsorted := insertionSort_less (c := c) ((nodup_tagNames tags tenantID repoID).filter
    fun x => decide (last = "" ∨ c.Less last x))
  have hmem : name ∈ ((tagNames tags tenantID repoID).filter
      fun x => last = "" ∨ c.Less last x).insertionSort c.Le := by
    refine (perm_insertionSort _ _).mem_iff.mpr (mem_filter.mpr ⟨hname, ?_⟩)
    exact decide_eq_true hafter
  generalize List.insertionSort c.Le _ = ordered at *
  rw [← take_append_drop n ordered] at hsorted hmem
  rcases mem_append.mp hmem with htake | hdrop
  · exact Or.inl htake
  · have hlt : n < ordered.length := by
      have hne := length_pos_of_mem hdrop
      rw [length_drop] at hne
      omega
    refine Or.inr ⟨by rw [length_take]; omega, fun l hl => ?_⟩
    exact (pairwise_append.mp hsorted).2.2 l (mem_of_getLast? hl) name hdrop

end Metadata

theorem parseDigits_repr (n : Nat) : parseDigits (Nat.repr n).toList = some n := by
  have hdigits : (Nat.repr n).toList = Nat.toDigits 10 n := String.toList_ofList
  have hall : (Nat.toDigits 10 n).all Char.isDigit = true :=
    all_eq_true.mpr fun c hc => Nat.isDigit_of_mem_toDigits (by decide) (by decide) hc
  rw [hdigits, parseDigits, if_pos ⟨Nat.toDigits_ne_nil, hall⟩,
    Nat.ofDigitChars_toDigits (by decide) (by decide)]

theorem parseInt_repr (n : Nat) :
    parseInt 32 (Nat.repr n) = if n < 2 ^ 31 then some (n : Int) else none := by
  have hparse := parseDigits_repr n
  have hminus := notMem_repr (c := '-') (by decide) n
  have hplus := notMem_repr (c := '+') (by decide) n
  unfold parseInt
  generalize (Nat.repr n).toList = ds at *
  split
  · exact absurd mem_cons_self hminus
  · exact absurd mem_cons_self hplus
  · rw [hparse]
    by_cases hlt : n < 2147483648
    · simp [Option.filter, hlt]
    · simp [Option.filter, hlt]

theorem pageSize_pos (n : String) : 0 < pageSize n := by
  unfold pageSize
  split
  · split_ifs with h
    · exact h
    · decide
  · decide

def firstPageSize (n : Nat) : Nat := if n < 2 ^ 31 then n else 100

theorem pageSize_repr {n : Nat} (hn : 1 ≤ n) : pageSize (Nat.repr n) = firstPageSize n := by
  unfold pageSize firstPageSize
  rw [parseInt_repr]
  by_cases hlt : n < 2 ^ 31
  · have hpos : (0 : Int) < n := by omega
    simp only [hlt, hpos, if_true]
  · simp only [hlt, if_false]
    rfl

section Core

variable {r : Repo} {q : Query} {answer : Page}

def Repo.names (r : Repo) : List String := orderedNames r.collation r.tags r.tenantID r.repoID

theorem handleTagsList_tags (h : handleTagsList r q = some answer) :
    answer.tags = r.names.take (pageSize q.n).toNat := by
  unfold handleTagsList registryListTags at h
  split at h
  · cases h
  · rename_i tags htags
    cases h
    simp only at htags
    split_ifs at htags
    cases htags
    simp [handleListTags, listTags, pageSize_pos, Repo.names, orderedNames]

theorem handleTagsList_link (h : handleTagsList r q = some answer) :
    answer.link = none ↔ r.names.length < (pageSize q.n).toNat := by
  have htags := handleTagsList_tags h
  have hpos := pageSize_pos q.n
  unfold handleTagsList at h
  split at h
  · cases h
  · rename_i tags _
    cases h
    simp only at htags
    have hlen : tags.length = min (pageSize q.n).toNat r.names.length := by
      rw [htags, length_take]
    by_cases hfull : (tags.length : Int) = pageSize q.n
    · have hne : tags ≠ [] := by
        rintro rfl
        simp at hfull
        omega
      simp only [hfull, hpos, and_self, if_true, Option.map_eq_none_iff, List.getLast?_eq_none_iff]
      constructor
      · exact fun h => absurd h hne
      · intro hlt
        omega
    · simp only [hfull, false_and, if_false, true_iff]
      omega

theorem mem_tags {a : String} {rest : List String} (hnames : r.names = a :: rest)
    (h : handleTagsList r q = some answer) : a ∈ answer.tags := by
  have hpos := pageSize_pos q.n
  obtain ⟨m, hm⟩ : ∃ m, (pageSize q.n).toNat = m + 1 := ⟨(pageSize q.n).toNat - 1, by omega⟩
  rw [handleTagsList_tags h, hnames, hm, take_succ_cons]
  exact mem_cons_self

theorem mem_walk {fuel : Nat} {listed : List String} {a : String} {rest : List String}
    (hnames : r.names = a :: rest) (h : walk r fuel q = some listed) : a ∈ listed := by
  cases fuel with
  | zero => cases h
  | succ fuel =>
    rw [walk] at h
    split at h
    · cases h
    · rename_i answer hanswer
      split at h
      · cases h
        exact mem_tags hnames hanswer
      · obtain ⟨more, _, rfl⟩ := Option.map_eq_some_iff.mp h
        exact mem_append_left _ (mem_tags hnames hanswer)

theorem not_complete_of_full {n : Nat} (hn : 1 ≤ n) (hfull : firstPageSize n ≤ r.names.length) :
    ¬ Complete r n := by
  rintro ⟨fuel, listed, hwalk, hless, _⟩
  have hsize := pageSize_repr hn
  have hpos := pageSize_pos (Nat.repr n)
  obtain ⟨a, rest, hnames⟩ : ∃ a rest, r.names = a :: rest :=
    exists_cons_of_length_pos (by omega)
  cases fuel with
  | zero => cases hwalk
  | succ fuel =>
    rw [walk] at hwalk
    split at hwalk
    · cases hwalk
    · rename_i answer hanswer
      split at hwalk
      · rename_i hlink
        have hlt := (handleTagsList_link hanswer).mp hlink
        simp only [firstQuery] at hlt
        omega
      · -- the first name is on this page and on the one after it
        obtain ⟨more, hmore, rfl⟩ := Option.map_eq_some_iff.mp hwalk
        have hhere := mem_tags hnames hanswer
        have hthere := mem_walk hnames hmore
        have haa := (pairwise_append.mp hless).2.2 a hhere a hthere
        exact Std.Asymm.asymm _ _ haa haa

theorem complete_of_short {n : Nat} (hn : 1 ≤ n) (hshort : r.names.length < firstPageSize n) :
    Complete r n := by
  obtain ⟨answer, hanswer⟩ : ∃ answer, handleTagsList r (firstQuery n) = some answer := by
    have hempty : stringBytes (String.ofList (decodeUtf8 [])) = [] := by decide
    exact ⟨_, by simp only [handleTagsList, registryListTags, firstQuery, hempty, if_true]; rfl⟩
  have hsize : (pageSize (firstQuery n).n).toNat = firstPageSize n := by
    rw [firstQuery, pageSize_repr hn, Int.toNat_natCast]
  have hlink := (handleTagsList_link hanswer).mpr (by rw [hsize]; exact hshort)
  have htags : answer.tags = r.names := by
    rw [handleTagsList_tags hanswer, hsize, take_of_length_le hshort.le]
  refine ⟨1, r.names, by simp [walk, hanswer, hlink, htags], orderedNames_less, ?_⟩
  exact perm_insertionSort _ _

end Core

/-- **When a listing is complete**: when the first page is not full. -/
theorem tags_complete_iff (r : Repo) (n : Nat) (hn : 1 ≤ n) :
    Complete r n ↔ (tagNames r.tags r.tenantID r.repoID).length < firstPageSize n := by
  have hlength : r.names.length = (tagNames r.tags r.tenantID r.repoID).length :=
    (perm_insertionSort _ _).length_eq
  rw [← hlength]
  constructor
  · intro hcomplete
    by_contra hfull
    exact not_complete_of_full hn (Nat.le_of_not_lt hfull) hcomplete
  · exact complete_of_short hn

def byText : Collation where
  lt a b := a < b
  irrefl a := by simp
  trans a b d hab hbd := by
    simp only [decide_eq_true_eq] at *
    exact lt_trans hab hbd
  total a b hne := by
    simp only [decide_eq_true_eq]
    exact lt_or_gt_of_ne hne

def twoTags : Repo where
  collation := byText
  tags := ⟨[⟨"r", "t", "v2"⟩, ⟨"r", "t", "v1"⟩], by decide⟩
  tenantID := "t"
  repoID := "r"
  name := "a/b"

theorem two_tags_by_three : Complete twoTags 3 :=
  (tags_complete_iff twoTags 3 (by decide)).mpr (by decide +kernel)

theorem tags_listed_again : ¬ ∀ (r : Repo) (n : Nat), 1 ≤ n → Complete r n :=
  fun h => not_complete_of_full (n := 2) (by decide) (by decide +kernel) (h twoTags 2 (by decide))

end OciJanus.Core.TagList
