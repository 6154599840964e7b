import Mathlib.Data.List.Basic

/-!
# Compliance reports

The `k`-th list call gets whatever `list k token` is. Every page that lets the loop go on fills
some of the room below `MaxFindings`.
-/

namespace OciJanus.Scanner.ReportDocument

open List

structure SeverityCounts where
  (critical high medium low negligible : Int)

structure TenantVulnerability where
  (cveID severity packageName packageVersion fixedIn : String)

structure Page where
  vulnerabilities : List TenantVulnerability
  nextPageToken : String

structure Finding where
  (cveID severity packageName version fixedIn : String)

structure Document where
  tenantID : String := ""
  generatedAt : Int := 0
  summaryCount : List (String × Int) := []
  findings : List Finding := []

inductive ReportError where
  | getSecurityOverview
  | listTenantVulnerabilities

def finding (v : TenantVulnerability) : Finding :=
  ⟨v.cveID, v.severity, v.packageName, v.packageVersion, v.fixedIn⟩

def summaryCount (c : SeverityCounts) : List (String × Int) :=
  [("CRITICAL", c.critical), ("HIGH", c.high), ("MEDIUM", c.medium), ("LOW", c.low),
    ("NEGLIGIBLE", c.negligible)]

section Worker

variable (list : Nat → String → Option Page) (maxFindings : Nat)

/-- The loop from the `k`-th list call on, with the answers it gets; `none` is a failed call. -/
def listFindings (k : Nat) (pageToken : String) (found : List Finding) :
    Option (List Finding) × List (Option Page) :=
  match list k pageToken with
  | none => (none, [none])
  | some page =>
    let found' := found ++ page.vulnerabilities.map finding
    if hempty : page.vulnerabilities = [] then (some found', [some page])
    else if hcap : maxFindings ≤ found'.length then (some (found'.take maxFindings), [some page])
    else if page.nextPageToken = "" then (some found', [some page])
    else
      let r := listFindings (k + 1) page.nextPageToken found'
      (r.1, some page :: r.2)
termination_by maxFindings - found.length
decreasing_by
  have hlen := length_pos_iff.mpr hempty
  simp only [found', length_append, length_map] at hcap ⊢
  omega

structure Built where
  document : Document
  error : Option ReportError
  pages : List (Option Page)

/-- The calls made, the overview's included. -/
def Built.calls (b : Built) : Nat := 1 + b.pages.length

def buildDocument (overview : Option SeverityCounts) (now : Int) (tenantID : String) : Built :=
  match overview with
  | none => ⟨{}, some .getSecurityOverview, []⟩
  | some counts =>
    match listFindings list maxFindings 0 "" [] with
    | (none, pages) => ⟨{}, some .listTenantVulnerabilities, pages⟩
    | (some findings, pages) => ⟨⟨tenantID, now, summaryCount counts, findings⟩, none, pages⟩

end Worker

def received (pages : List (Option Page)) : List TenantVulnerability :=
  (pages.filterMap id).flatMap (·.vulnerabilities)

/-- The pages are the answers of the calls from the `k`-th on, each made with the token of the
answer before; nothing is asked after a failed call. -/
def Answers (list : Nat → String → Option Page) : Nat → String → List (Option Page) → Prop
  | _, _, [] => True
  | k, token, none :: pages => list k token = none ∧ pages = []
  | k, token, some page :: pages =>
    list k token = some page ∧ Answers list (k + 1) page.nextPageToken pages

variable {list : Nat → String → Option Page} {maxFindings : Nat}

theorem listFindings_answers (k : Nat) (pageToken : String) (found : List Finding) :
    (listFindings list maxFindings k pageToken found).2 ≠ [] ∧
      Answers list k pageToken (listFindings list maxFindings k pageToken found).2 := by
  fun_induction listFindings list maxFindings k pageToken found with
  | case1 k token found hnone => simpa [Answers] using hnone
  | case2 k token found page hpage | case3 k token found page hpage
  | case4 k token found page hpage => simpa [Answers] using hpage
  | case5 k token found page hpage found' hempty hcap htoken r ih =>
    exact ⟨cons_ne_nil _ _, hpage, ih.2⟩

/-- What the loop keeps: room for every call, and a prefix of what it was told. -/
structure Kept (maxFindings : Nat) (found : List Finding)
    (r : Option (List Finding) × List (Option Page)) : Prop where
  calls : r.2.length ≤ maxFindings - found.length
  failed : r.1 = none ↔ none ∈ r.2
  first : ∀ findings ∈ r.1,
    findings = (found ++ (received r.2).map finding).take maxFindings

theorem Kept.last {found : List Finding} {page : Page} {findings : List Finding}
    (hroom : found.length < maxFindings)
    (h : findings = (found ++ page.vulnerabilities.map finding).take maxFindings) :
    Kept maxFindings found (some findings, [some page]) where
  calls := by
    show 1 ≤ _
    omega
  failed := by simp
  first := by
    rintro _ ⟨⟩
    simpa [received] using h

theorem listFindings_kept (k : Nat) (pageToken : String) (found : List Finding)
    (hroom : found.length < maxFindings) :
    Kept maxFindings found (listFindings list maxFindings k pageToken found) := by
  fun_induction listFindings list maxFindings k pageToken found with
  | case1 k token found hnone =>
    refine ⟨?_, by simp, nofun⟩
    show 1 ≤ _
    omega
  | case2 k token found page hpage found' hempty =>
    apply Kept.last hroom
    rw [hempty, map_nil, append_nil, take_of_length_le (Nat.le_of_lt hroom)]
    simp [found', hempty]
  | case3 k token found page hpage found' hempty hcap => exact Kept.last hroom rfl
  | case4 k token found page hpage found' hempty hcap htoken =>
    exact Kept.last hroom (take_of_length_le (Nat.le_of_not_le hcap)).symm
  | case5 k token found page hpage found' hempty hcap htoken r ih =>
    obtain ⟨hcalls, hfailed, hfirst⟩ : Kept maxFindings found' r := ih (Nat.lt_of_not_le hcap)
    have hlen : found'.length = found.length + page.vulnerabilities.length := by simp [found']
    have hpos := length_pos_iff.mpr hempty
    refine ⟨?_, ?_, ?_⟩
    · rw [length_cons]
      omega
    · rw [hfailed]
      simp [r]
    · intro findings hfindings
      rw [hfirst findings hfindings]
      simp [found', received, r]

/-- **A report ends and tells what it was told**, or fails with an empty document. -/
theorem report_faithful (list : Nat → String → Option Page) (overview : Option SeverityCounts)
    (maxFindings : Nat) (hmax : 1 ≤ maxFindings) (now : Int) (tenantID : String) :
    let b := buildDocument list maxFindings overview now tenantID
    b.calls ≤ 1 + maxFindings ∧
    (overview = none ∨ none ∈ b.pages → b.error ≠ none ∧ b.document = {}) ∧
    ∀ counts, overview = some counts → b.pages ≠ [] ∧ Answers list 0 "" b.pages ∧
      (none ∉ b.pages → b.error = none ∧
        b.document.findings.map (fun f =>
            (f.cveID, f.severity, f.packageName, f.version, f.fixedIn)) =
          ((received b.pages).take maxFindings).map (fun v =>
            (v.cveID, v.severity, v.packageName, v.packageVersion, v.fixedIn)) ∧
        ["CRITICAL", "HIGH", "MEDIUM", "LOW", "NEGLIGIBLE"].map (b.document.summaryCount.lookup ·) =
          [counts.critical, counts.high, counts.medium, counts.low,
            counts.negligible].map some) := by
  cases overview with
  | none => exact ⟨Nat.le_add_right 1 _, fun _ => ⟨nofun, rfl⟩, nofun⟩
  | some counts =>
    have hkept : Kept maxFindings [] (listFindings list maxFindings 0 "" []) :=
      listFindings_kept 0 "" [] hmax
    have hanswers : (listFindings list maxFindings 0 "" []).2 ≠ [] ∧ Answers list 0 "" _ :=
      listFindings_answers 0 "" []
    unfold buildDocument Built.calls
    revert hkept hanswers
    rcases listFindings list maxFindings 0 "" [] with ⟨_ | findings, pages⟩
    · rintro ⟨hcalls, hfailed, -⟩ ⟨hne, hanswers⟩
      refine ⟨Nat.add_le_add_left hcalls 1, fun _ => ⟨nofun, rfl⟩, fun _ _ => ?_⟩
      exact ⟨hne, hanswers, fun hok => absurd (hfailed.mp rfl) hok⟩
    · rintro ⟨hcalls, hfailed, hfirst⟩ ⟨hne, hanswers⟩
      refine ⟨Nat.add_le_add_left hcalls 1, ?_, ?_⟩
      · rintro (hnone | hmem)
        · cases hnone
        · exact absurd (hfailed.mpr hmem) nofun
      · rintro _ ⟨⟩
        refine ⟨hne, hanswers, fun _ => ⟨rfl, ?_, rfl⟩⟩
        rw [show findings = _ from hfirst findings rfl, nil_append, ← map_take, map_map]
        rfl

def endless (_ : Nat) (_ : String) : Option Page := some ⟨[⟨"c", "HIGH", "p", "1", "2"⟩], "next"⟩

theorem endless_report_ends :
    let b := buildDocument endless 3 (some ⟨0, 1, 0, 0, 0⟩) 0 "t"
    b.calls ≤ 4 ∧ b.document.findings.length = 3 := by
  intro b
  have hfaithful := report_faithful endless (some ⟨0, 1, 0, 0, 0⟩) 3 (by decide) 0 "t"
  refine ⟨hfaithful.1, ?_⟩
  simp [b, buildDocument, listFindings, endless]

end OciJanus.Scanner.ReportDocument
