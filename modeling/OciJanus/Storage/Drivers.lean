import OciJanus.Core.Storage
import OciJanus.Verified.LexPath

/-!
# The filesystem driver

A key is cleaned as a path below the root, and a listing cuts the root off the paths it walks.
-/

namespace OciJanus.Storage.Drivers

open Core.Storage Verified.GoStrings Verified.LexPath List

structure FilesystemDriver where
  root : String
  isAbs : hasPrefix root "/" = true

inductive PathError where
  | traversal
  deriving DecidableEq

def cleanPath (p : String) : String := String.ofList (clean p.toList)

def joinPath (dir name : String) : String :=
  if name = "" then cleanPath dir else cleanPath (dir ++ "/" ++ name)

namespace FilesystemDriver

variable (d : FilesystemDriver)

def resolve (key : String) : Except PathError String :=
  let path := cleanPath (joinPath d.root key)
  if !hasPrefix path (d.root ++ "/") && path ≠ d.root then .error .traversal else .ok path

def withSlash (p : String) : String := if p = "/" then p else p ++ "/"

def relPath (f : String) : String :=
  if f = d.root then "." else trimPrefix f (withSlash d.root)

def listBlobs (files : List String) (pre : String) : Except PathError (List String) := do
  let searchRoot ← d.resolve pre
  .ok <| (files.filter fun f =>
      (f = searchRoot || hasPrefix f (withSlash searchRoot)) && !contains f ".multipart").map
    d.relPath

def names : List Segment := cleanStack (segments d.root.toList)

def dir : String := String.ofList (slashed d.names)

/-- Where a path below the root ends: the names of the root, less one for each `..` that leaves
more than the path has entered, and then the names it enters. -/
def landsAt (name : String) : List Segment := landing d.names (segments name.toList)

theorem plain_names : ∀ x ∈ d.names, Plain x := plain_cleanStack fun _ => slash_notMem_segments

theorem joined_names (name : String) :
    cleanStack (segments (d.root.toList ++ '/' :: name.toList)) = d.landsAt name := by
  rw [segments_append, cleanStack_append]
  rfl

theorem plain_landsAt (name : String) : ∀ x ∈ d.landsAt name, Plain x := by
  rw [← d.joined_names]
  exact plain_cleanStack fun _ => slash_notMem_segments

theorem joinPath_eq (name : String) :
    joinPath d.root name = String.ofList (rooted (d.landsAt name)) := by
  unfold joinPath cleanPath clean
  by_cases hname : name = ""
  · subst hname
    rw [if_pos rfl, ← d.joined_names, segments_append, cleanStack_append]
    simp [landing, climb, climbStep, enter, segments]
  · rw [if_neg hname, ← d.joined_names]
    simp [String.toList_append]

variable {key path s pre : String}

theorem cleanPath_joinPath : cleanPath (joinPath d.root key) = joinPath d.root key := by
  rw [joinPath_eq, cleanPath, String.toList_ofList, clean,
    cleanStack_segments_rooted (d.plain_landsAt key)]

theorem resolve_ok (h : d.resolve key = .ok path) :
    path.toList = rooted (d.landsAt key) ∧
      (hasPrefix path (d.root ++ "/") = true ∨ path = d.root) := by
  unfold resolve at h
  simp only [cleanPath_joinPath] at h
  split_ifs at h with hout
  cases h
  refine ⟨by rw [joinPath_eq, String.toList_ofList], ?_⟩
  by_cases hpre : hasPrefix (joinPath d.root key) (d.root ++ "/") = true
  · exact Or.inl hpre
  · exact Or.inr (by simpa [hpre] using hout)

theorem root_eq_dir (h : d.resolve key = .ok path) :
    d.root = d.dir ∨ (d.root = "/" ∧ path = "/" ∧ d.names = [] ∧ d.landsAt key = []) := by
  obtain ⟨hpath, hin⟩ := d.resolve_ok h
  cases hin with
  | inl hpre =>
    refine Or.inl ?_
    obtain ⟨p, hp⟩ := hasPrefix_iff.mp d.isAbs
    have hroot : d.root.toList = slashed (segments p.toList) := by
      rw [slashed_segments, hp, String.toList_append]
      rfl
    rw [hasPrefix, isPrefixOf_iff_prefix, String.toList_append, hpath, hroot] at hpre
    have hnil : segments p.toList ≠ [] := splitOn_ne_nil '/' _
    have hbelow := (rooted_prefix_iff hnil (fun _ => slash_notMem_segments)
      fun x hx => (d.plain_landsAt key x hx).2.2.2).mp hpre
    have hplain : ∀ x ∈ segments p.toList, Plain x := fun x hx =>
      d.plain_landsAt key x (hbelow.1.subset hx)
    have hread := cleanStack_segments_rooted hplain
    rw [rooted, if_neg hnil, ← hroot] at hread
    apply String.toList_inj.mp
    rw [dir, names, hread, String.toList_ofList, hroot]
  | inr heq =>
    rw [heq] at hpath
    have hnames : d.names = d.landsAt key := by
      rw [names, hpath]
      exact cleanStack_segments_rooted (d.plain_landsAt key)
    by_cases hnil : d.landsAt key = []
    · rw [hnil] at hnames hpath
      have hroot : d.root = "/" := String.toList_inj.mp hpath
      exact Or.inr ⟨hroot, heq.trans hroot, hnames, hnil⟩
    · refine Or.inl (String.toList_inj.mp ?_)
      rw [dir, hnames, String.toList_ofList, hpath, rooted, if_neg hnil]

theorem trimPrefix_append (p t : String) : trimPrefix (p ++ t) p = t := by
  rw [trimPrefix, if_pos (hasPrefix_iff.mpr ⟨t, rfl⟩)]
  simp [String.toList_append]

theorem listBlobs_ok (h : d.resolve pre = .ok path) (files : List String) :
    d.listBlobs files pre = .ok ((files.filter fun f =>
      (f = path || hasPrefix f (withSlash path)) && !contains f ".multipart").map d.relPath) := by
  rw [listBlobs, h]
  rfl

theorem dir_ne_slash : d.dir ≠ "/" := by
  intro h
  have htext : slashed d.names = ['/'] := by
    rw [dir] at h
    simpa using congrArg String.toList h
  cases hnames : d.names with
  | nil => simp [hnames, slashed] at htext
  | cons x names =>
    have hx := d.plain_names x (by simp [hnames])
    rw [hnames] at htext
    exact hx.1 (append_eq_nil_iff.mp (List.cons.inj htext).2).1

theorem root_ne_slash (h : d.resolve pre = .ok path) (hne : path ≠ d.root) : d.root ≠ "/" := by
  rcases d.root_eq_dir h with hroot | ⟨hroot, hpath, _⟩
  · rw [hroot]
    exact d.dir_ne_slash
  · exact absurd (hpath.trans hroot.symm) hne

theorem append_ne_self {t : String} (ht : t ≠ "") : s ++ t ≠ s := by
  intro h
  have hlen := congrArg (fun u : String => u.toList.length) h
  have hpos : t.toList ≠ [] := fun hnil => ht (String.toList_inj.mp hnil)
  simp only [String.toList_append, length_append] at hlen
  exact hpos (eq_nil_of_length_eq_zero (by omega))

theorem relPath_below (hroot : d.root ≠ "/") (k : String) : d.relPath (d.root ++ "/" ++ k) = k := by
  have hne : d.root ++ "/" ++ k ≠ d.root := by
    rw [String.append_assoc]
    exact append_ne_self (by simp)
  rw [relPath, if_neg hne, withSlash, if_neg hroot, trimPrefix_append]

theorem resolve_relPath (h : d.resolve key = .ok path) (hne : path ≠ d.root) :
    d.resolve (d.relPath path) = .ok path := by
  obtain ⟨hpath, hin⟩ := d.resolve_ok h
  have hbelow := hin.resolve_right hne
  obtain ⟨k, hk⟩ := hasPrefix_iff.mp hbelow
  have hread : cleanStack (segments path.toList) = d.landsAt key := by
    rw [hpath, cleanStack_segments_rooted (d.plain_landsAt key)]
  have hlands : d.landsAt k = d.landsAt key := by
    rw [← d.joined_names, ← hread, hk]
    simp [String.toList_append]
  have hjoin : joinPath d.root k = path := by
    rw [joinPath_eq, hlands, ← hpath, String.ofList_toList]
  have hclean : cleanPath path = path := by
    rw [cleanPath, clean, hread, ← hpath, String.ofList_toList]
  rw [hk, d.relPath_below (d.root_ne_slash h hne), ← hk, resolve]
  simp [hjoin, hclean, hbelow]

end FilesystemDriver

def dataDriver : FilesystemDriver := ⟨"/data", by decide⟩

/-- **Every listed key reads back the file it was listed for**, if the files are such as the
driver writes. -/
theorem listed_keys_read_back (d : FilesystemDriver) (files keys : List String) (pre : String)
    (hfiles : ∀ f ∈ files, f ≠ d.root ∧ ∃ key, d.resolve key = .ok f)
    (h : d.listBlobs files pre = .ok keys) :
    ∀ k ∈ keys, ∃ f ∈ files, d.relPath f = k ∧ d.resolve k = .ok f := by
  intro k hk
  cases hpath : d.resolve pre with
  | error e =>
    rw [FilesystemDriver.listBlobs, hpath] at h
    cases h
  | ok path =>
    rw [d.listBlobs_ok hpath] at h
    cases h
    obtain ⟨f, hf, rfl⟩ := mem_map.mp hk
    obtain ⟨hne, key, hkey⟩ := hfiles f (mem_filter.mp hf).1
    exact ⟨f, (mem_filter.mp hf).1, rfl, d.resolve_relPath hkey hne⟩

theorem stored_key_reads_back :
    ∃ f ∈ ["/data/blobs/t1/x"], dataDriver.relPath f = "blobs/t1/x" ∧
      dataDriver.resolve "blobs/t1/x" = .ok f :=
  listed_keys_read_back dataDriver ["/data/blobs/t1/x"] ["blobs/t1/x"] "blobs"
    (by simpa using ⟨by decide, "blobs/t1/x", by decide +kernel⟩) (by decide +kernel)
    "blobs/t1/x" (by simp)

end OciJanus.Storage.Drivers
