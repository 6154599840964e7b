import Mathlib.Data.List.Infix

/-!
# Lexical paths

A relative path has a normal form (`climb`): the levels it leaves, then the names it enters.
-/

namespace OciJanus.Verified.LexPath

open List

abbrev Segment := List Char

def segments (p : List Char) : List Segment := p.splitOn '/'

theorem segments_append (p q : List Char) : segments (p ++ '/' :: q) = segments p ++ segments q :=
  splitOn_append_cons_self p q

theorem segments_cons (c : Char) (p : List Char) :
    ∃ seg segs, segments p = seg :: segs ∧
      segments (c :: p) = if c = '/' then [] :: seg :: segs else (c :: seg) :: segs := by
  cases hp : segments p with
  | nil => exact absurd hp (splitOn_ne_nil '/' p)
  | cons seg segs =>
    refine ⟨seg, segs, rfl, ?_⟩
    unfold segments at hp ⊢
    rw [splitOn_cons_eq_if_modifyHead, hp]
    by_cases hc : c = '/'
    · simp [hc]
    · simp [hc]

variable {seg : Segment}

theorem slash_notMem_segments {p : List Char} (h : seg ∈ segments p) : '/' ∉ seg := by
  induction p generalizing seg with
  | nil =>
    obtain rfl : seg = [] := by simpa [segments] using h
    simp
  | cons c p ih =>
    obtain ⟨first, rest, hp, hcons⟩ := segments_cons c p
    rw [hcons] at h
    rw [hp] at ih
    by_cases hc : c = '/'
    · rw [if_pos hc] at h
      rcases mem_cons.mp h with rfl | h
      · simp
      · exact ih h
    · rw [if_neg hc] at h
      rcases mem_cons.mp h with rfl | h
      · exact fun hmem => (mem_cons.mp hmem).elim (fun h => hc h.symm) (ih mem_cons_self)
      · exact ih (mem_cons_of_mem _ h)

def enter (stack : List Segment) (seg : Segment) : List Segment :=
  if seg = [] ∨ seg = ['.'] then stack
  else if seg = ['.', '.'] then stack.tail
  else seg :: stack

def Plain (seg : Segment) : Prop := seg ≠ [] ∧ seg ≠ ['.'] ∧ seg ≠ ['.', '.'] ∧ '/' ∉ seg
  deriving Decidable

theorem enter_of_plain (h : Plain seg) (stack : List Segment) : enter stack seg = seg :: stack := by
  unfold enter
  rw [if_neg (not_or.mpr ⟨h.1, h.2.1⟩), if_neg h.2.2.1]

theorem plain_enter {stack : List Segment} (hstack : ∀ x ∈ stack, Plain x)
    (hseg : '/' ∉ seg) : ∀ x ∈ enter stack seg, Plain x := by
  unfold enter
  split_ifs with hskip hup
  · exact hstack
  · exact fun x hx => hstack x (mem_of_mem_tail hx)
  · intro x hx
    rw [not_or] at hskip
    rcases mem_cons.mp hx with rfl | hx
    · exact ⟨hskip.1, hskip.2, hup, hseg⟩
    · exact hstack x hx

variable {segs names dir : List Segment}

theorem plain_foldl_enter {stack : List Segment} (hstack : ∀ x ∈ stack, Plain x)
    (hsegs : ∀ seg ∈ segs, '/' ∉ seg) : ∀ x ∈ segs.foldl enter stack, Plain x := by
  induction segs generalizing stack with
  | nil => exact hstack
  | cons seg segs ih =>
    have hhead := plain_enter hstack (hsegs seg mem_cons_self)
    exact ih hhead fun s hs => hsegs s (mem_cons_of_mem _ hs)

theorem foldl_enter_of_plain (hsegs : ∀ seg ∈ segs, Plain seg)
    (stack : List Segment) : segs.foldl enter stack = segs.reverse ++ stack := by
  induction segs generalizing stack with
  | nil => rfl
  | cons seg segs ih =>
    rw [foldl_cons, enter_of_plain (hsegs seg mem_cons_self),
      ih fun s hs => hsegs s (mem_cons_of_mem _ hs)]
    simp

def cleanStack (segs : List Segment) : List Segment := (segs.foldl enter []).reverse

theorem plain_cleanStack (hsegs : ∀ seg ∈ segs, '/' ∉ seg) : ∀ x ∈ cleanStack segs, Plain x := by
  intro x hx
  exact plain_foldl_enter (fun _ h => absurd h not_mem_nil) hsegs x (mem_reverse.mp hx)

theorem cleanStack_of_plain (hsegs : ∀ seg ∈ segs, Plain seg) : cleanStack segs = segs := by
  rw [cleanStack, foldl_enter_of_plain hsegs, append_nil, reverse_reverse]

def climbStep (st : Nat × List Segment) (seg : Segment) : Nat × List Segment :=
  if seg = ['.', '.'] ∧ st.2 = [] then (st.1 + 1, []) else (st.1, enter st.2 seg)

/-- How many levels a path leaves above its start, and the names it then enters. -/
def climb (segs : List Segment) : Nat × List Segment :=
  let st := segs.foldl climbStep (0, [])
  (st.1, st.2.reverse)

def above (base : List Segment) (st : Nat × List Segment) : List Segment :=
  st.2 ++ base.drop st.1

theorem enter_above (base : List Segment) (st : Nat × List Segment) (seg : Segment) :
    enter (above base st) seg = above base (climbStep st seg) := by
  obtain ⟨ups, names⟩ := st
  by_cases hup : seg = ['.', '.']
  · subst hup
    cases names with
    | nil =>
      -- nothing of its own is left: the path leaves a level of the base
      simp [above, climbStep, enter, tail_drop]
    | cons name names => simp [above, climbStep, enter]
  · rw [climbStep, if_neg (fun h => hup h.1)]
    unfold enter above
    by_cases hskip : seg = [] ∨ seg = ['.']
    · simp only [if_pos hskip]
    · simp only [if_neg hskip, if_neg hup, cons_append]

theorem foldl_enter_above (base segs : List Segment) (st : Nat × List Segment) :
    segs.foldl enter (above base st) = above base (segs.foldl climbStep st) := by
  induction segs generalizing st with
  | nil => rfl
  | cons seg segs ih => rw [foldl_cons, enter_above, ih, foldl_cons]

/-- Where a relative path ends that starts at `base`. -/
def landing (base rest : List Segment) : List Segment :=
  base.take (base.length - (climb rest).1) ++ (climb rest).2

theorem cleanStack_append (p rest : List Segment) :
    cleanStack (p ++ rest) = landing (cleanStack p) rest := by
  have hbase : p.foldl enter [] = above (p.foldl enter []) (0, []) := by simp [above]
  rw [cleanStack, foldl_append, hbase, foldl_enter_above]
  unfold above landing cleanStack climb
  rw [reverse_append, reverse_drop, length_reverse]

def slashed (names : List Segment) : List Char := names.flatMap ('/' :: ·)

def rooted (names : List Segment) : List Char := if names = [] then ['/'] else slashed names

def clean (p : List Char) : List Char := rooted (cleanStack (segments p))

theorem slashed_append (D E : List Segment) : slashed (D ++ E) = slashed D ++ slashed E :=
  flatMap_append

theorem slashed_segments (p : List Char) : slashed (segments p) = '/' :: p := by
  induction p with
  | nil => rfl
  | cons c p ih =>
    obtain ⟨first, rest, hp, hcons⟩ := segments_cons c p
    rw [hp] at ih
    by_cases hc : c = '/'
    · rw [hcons, if_pos hc, hc]
      show '/' :: slashed (first :: rest) = _
      rw [ih]
    · rw [hcons, if_neg hc]
      have htail : first ++ slashed rest = p := (List.cons.inj ih).2
      show '/' :: c :: (first ++ slashed rest) = _
      rw [htail]

theorem segments_slashed (h : ∀ x ∈ names, '/' ∉ x) (seg : Segment)
    (hseg : '/' ∉ seg) : segments (seg ++ slashed names) = seg :: names := by
  induction names generalizing seg with
  | nil => simp [slashed, segments, splitOn_eq_singleton hseg]
  | cons name names ih =>
    show segments (seg ++ '/' :: (name ++ slashed names)) = _
    rw [segments_append, ih (fun x hx => h x (mem_cons_of_mem _ hx)) name
      (h name mem_cons_self), segments, splitOn_eq_singleton hseg]
    rfl

theorem cleanStack_segments_rooted (h : ∀ x ∈ names, Plain x) :
    cleanStack (segments (rooted names)) = names := by
  unfold rooted
  by_cases hnil : names = []
  · subst hnil
    rfl
  · rw [if_neg hnil]
    have hsegs := segments_slashed (fun x hx => (h x hx).2.2.2) [] (by simp)
    rw [nil_append] at hsegs
    rw [hsegs]
    show cleanStack names = names
    exact cleanStack_of_plain h

def Below (dir names : List Segment) : Prop := dir <+: names ∧ dir ≠ names
  deriving Decidable

theorem slashed_inj (hdir : ∀ x ∈ dir, '/' ∉ x)
    (hnames : ∀ x ∈ names, '/' ∉ x) (h : slashed dir = slashed names) : dir = names := by
  have hread := segments_slashed hdir [] (by simp)
  rw [h, segments_slashed hnames [] (by simp)] at hread
  exact (List.cons.inj hread).2.symm

theorem slashed_prefix_iff (hdir : ∀ x ∈ dir, '/' ∉ x) (hnames : ∀ x ∈ names, '/' ∉ x) :
    slashed dir ++ ['/'] <+: slashed names ↔ Below dir names := by
  constructor
  · rintro ⟨t, ht⟩
    have htext : slashed (dir ++ segments t) = slashed names := by
      rw [slashed_append, slashed_segments, ← ht, append_assoc]
      rfl
    have hsplit : dir ++ segments t = names := by
      refine slashed_inj (fun x hx => ?_) hnames htext
      exact (mem_append.mp hx).elim (hdir x) slash_notMem_segments
    refine ⟨⟨segments t, hsplit⟩, fun heq => ?_⟩
    rw [heq] at hsplit
    exact splitOn_ne_nil '/' t (self_eq_append_right.mp hsplit.symm)
  · rintro ⟨⟨rest, rfl⟩, hne⟩
    cases rest with
    | nil => exact absurd (append_nil dir).symm hne
    | cons x rest =>
      rw [slashed_append]
      exact ⟨x ++ slashed rest, by simp [slashed]⟩

theorem rooted_prefix_iff (hnil : dir ≠ [])
    (hdir : ∀ x ∈ dir, '/' ∉ x) (hnames : ∀ x ∈ names, '/' ∉ x) :
    slashed dir ++ ['/'] <+: rooted names ↔ Below dir names := by
  unfold rooted
  by_cases hroot : names = []
  · subst hroot
    rw [if_pos rfl]
    constructor
    · intro hbegins
      have hlen := hbegins.length_le
      cases dir with
      | nil => exact absurd rfl hnil
      | cons x dir => simp [slashed] at hlen
    · rintro ⟨hbegins, _⟩
      exact absurd (prefix_nil.mp hbegins) hnil
  · rw [if_neg hroot]
    exact slashed_prefix_iff hdir hnames

end OciJanus.Verified.LexPath
