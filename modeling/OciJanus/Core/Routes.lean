import OciJanus.Core.ManifestRoundTrip

/-!
# Dispatch of `/v2/` requests and what the handlers read from them

`dispatchOCI` matches the last segments of the path in a fixed order. `blobKeyCalls` lists the
digests a request makes the registry slice.
-/

namespace OciJanus.Core.Routes

open Verified.GoStrings Core.Upload Core.UploadHandlers Core.ManifestRoundTrip

inductive Verb where
  | get | head | post | put | patch | delete | other
  deriving DecidableEq

inductive Handler where
  | tagsList | getUpload | patchUpload | completeUpload | cancelUpload | initiateUpload |
  getManifest | headManifest | putManifest | deleteManifest | getBlob | headBlob | deleteBlob |
  referrers
  deriving DecidableEq

inductive Route where
  | versionCheck
  | handle (h : Handler) (name arg : String)
  | methodNotAllowed
  | notFound
  deriving DecidableEq

def trimSlashes (cs : List Char) : List Char :=
  ((cs.dropWhile (· == '/')).reverse.dropWhile (· == '/')).reverse

def join (segments : List String) : String :=
  String.ofList (['/'].intercalate (segments.map String.toList))

def uploadHandler : Verb → Option Handler
  | .get => some .getUpload
  | .patch => some .patchUpload
  | .put => some .completeUpload
  | .delete => some .cancelUpload
  | _ => none

def manifestHandler : Verb → Option Handler
  | .get => some .getManifest
  | .head => some .headManifest
  | .put => some .putManifest
  | .delete => some .deleteManifest
  | _ => none

def blobHandler : Verb → Option Handler
  | .get => some .getBlob
  | .head => some .headBlob
  | .delete => some .deleteBlob
  | _ => none

def routed (h : Option Handler) (name arg : String) : Route :=
  match h with
  | some h => .handle h name arg
  | none => .methodNotAllowed

/-- The `switch`, over the segments from the last one on. -/
def route (method : Verb) : List String → Route
  | last :: prev :: before :: rest =>
    let name := join (before :: rest).reverse
    if prev = "tags" ∧ last = "list" then .handle .tagsList name ""
    else if rest ≠ [] ∧ before = "blobs" ∧ prev = "uploads" then
      routed (uploadHandler method) (join rest.reverse) last
    else if prev = "blobs" ∧ last = "uploads" then
      routed (if method = .post then some .initiateUpload else none) name ""
    else if prev = "manifests" then routed (manifestHandler method) name last
    else if prev = "blobs" then routed (blobHandler method) name last
    else if prev = "referrers" then
      routed (if method = .get then some .referrers else none) name last
    else .notFound
  | _ => .notFound

def dispatchOCI (method : Verb) (urlPath : String) : Route :=
  let path := trimSlashes (trimPrefix urlPath "/v2").toList
  if path = [] then .versionCheck else route method (splitOn '/' (String.ofList path)).reverse

inductive Operation where
  | tagsList
  | uploads
  | upload (id : String)
  | manifest (ref : String)
  | blob (digest : String)
  | referrers (digest : String)

namespace Operation

def arg : Operation → String
  | tagsList | uploads => ""
  | upload a | manifest a | blob a | referrers a => a

def segments : Operation → List String
  | tagsList => ["tags", "list"]
  | uploads => ["blobs", "uploads"]
  | upload id => ["blobs", "uploads", id]
  | manifest ref => ["manifests", ref]
  | blob digest => ["blobs", digest]
  | referrers digest => ["referrers", digest]

def handler (method : Verb) : Operation → Option Handler
  | tagsList => some .tagsList
  | uploads => if method = .post then some .initiateUpload else none
  | upload _ => uploadHandler method
  | manifest _ => manifestHandler method
  | blob _ => blobHandler method
  | referrers _ => if method = .get then some .referrers else none

def path (op : Operation) (name : String) : String := "/v2/" ++ join (name :: op.segments)

/-- Every segment is non-empty and without a slash. -/
def Plain (op : Operation) : Prop := ∀ s ∈ op.segments, s ≠ "" ∧ '/' ∉ s.toList

end Operation

variable {org repo name : String}

theorem join_cons_fullName (segments : List String) :
    join ((org ++ "/" ++ repo) :: segments) = join (org :: repo :: segments) := by
  unfold join
  cases segments <;> simp [List.intercalate, String.toList_append]

theorem intercalate_ends {segs : List (List Char)} (h : ∀ s ∈ segs, s ≠ [] ∧ '/' ∉ s) :
    '/' ∉ (['/'].intercalate segs).head? ∧ '/' ∉ (['/'].intercalate segs).getLast? := by
  induction segs with
  | nil => simp [List.intercalate]
  | cons s segs ih =>
    obtain ⟨hs, hslash⟩ := h s (by simp)
    have hhead : '/' ∉ s.head? := fun hc => hslash (List.mem_of_mem_head? hc)
    have hlast : '/' ∉ s.getLast? := fun hc => hslash (List.mem_of_mem_getLast? hc)
    cases segs with
    | nil => simpa [List.intercalate] using ⟨hhead, hlast⟩
    | cons t segs =>
      have hrest := ih fun u hu => h u (List.mem_cons_of_mem _ hu)
      have hne : ['/'].intercalate (t :: segs) ≠ [] := by
        have := (h t (by simp)).1
        cases segs <;> simp [List.intercalate, this]
      rw [List.intercalate_cons_cons]
      constructor
      · rwa [List.append_assoc, List.head?_append_of_ne_nil _ hs]
      · rw [List.getLast?_append_of_ne_nil _ hne]
        exact hrest.2

theorem dispatchOCI_join (method : Verb) {segs : List String}
    (h : ∀ s ∈ segs, s ≠ "" ∧ '/' ∉ s.toList) (hne : segs ≠ []) :
    dispatchOCI method ("/v2/" ++ join segs) = route method segs.reverse := by
  have hchars : ∀ s ∈ segs.map String.toList, s ≠ [] ∧ '/' ∉ s := by
    intro s hs
    obtain ⟨t, ht, rfl⟩ := List.mem_map.mp hs
    exact ⟨by simpa using (h t ht).1, (h t ht).2⟩
  have hpath : "/v2/" ++ join segs =
      "/v2" ++ String.ofList ('/' :: ['/'].intercalate (segs.map String.toList)) := by
    apply String.toList_inj.mp
    simp [join, String.toList_append]
  have hends := intercalate_ends hchars
  have hmap : segs.map String.toList ≠ [] := by simpa using hne
  have hsplit := List.splitOn_intercalate '/' (fun l hl => (hchars l hl).2) hmap
  unfold dispatchOCI
  have htrim : trimSlashes ('/' :: ['/'].intercalate (segs.map String.toList)) =
      ['/'].intercalate (segs.map String.toList) := by
    unfold trimSlashes
    rw [List.dropWhile_cons_of_pos (by rfl)]
    refine trim_of_ends (fun c hc => ?_) fun c hc => ?_
    · simpa using fun h : c = '/' => hends.1 (h ▸ hc)
    · simpa using fun h : c = '/' => hends.2 (h ▸ hc)
  rw [hpath, trimPrefix_append, String.toList_ofList, htrim]
  rw [if_neg, splitOn, String.toList_ofList, hsplit, List.map_map]
  · congr 2
    simp [Function.comp_def]
  · intro hnil
    have hmem : [] ∈ segs.map String.toList := by
      rw [← hsplit, hnil]
      exact List.mem_singleton.mpr rfl
    exact (hchars [] hmem).1 rfl

theorem matchesComponent_plain {s : String} (h : matchesComponent s = true) :
    s ≠ "" ∧ '/' ∉ s.toList := by
  have hpart := List.all_eq_true.mp h
  constructor
  · rintro rfl
    revert h
    decide
  · intro hmem
    obtain ⟨part, hp, hc⟩ := exists_mem_splitOnP
      (p := fun c => c == '.' || c == '_' || c == '-') (by rfl) hmem
    have hall := hpart part hp
    rw [Bool.and_eq_true] at hall
    exact absurd (List.all_eq_true.mp hall.2 '/' hc) (by decide)

theorem validateName_segments (h : validateName name = true) :
    ∃ org repo, name = org ++ "/" ++ repo ∧ ∀ s ∈ [org, repo], s ≠ "" ∧ '/' ∉ s.toList := by
  obtain ⟨⟨org, repo⟩, hcut, hparts⟩ := Option.any_eq_true _ _ |>.mp h
  rw [Bool.and_eq_true] at hparts
  refine ⟨org, repo, (cut_eq_some hcut).1, ?_⟩
  simpa using ⟨matchesComponent_plain hparts.1, matchesComponent_plain hparts.2⟩

theorem join_pair : join [org, repo] = org ++ "/" ++ repo := by
  apply String.toList_inj.mp
  simp [join, List.intercalate, String.toList_append]

/-- **Every operation reaches its handler**, unless the digest of a blob is the word `uploads`. -/
theorem dispatch_unambiguous (method : Verb) (name : String) (hname : validateName name = true)
    (op : Operation) (hop : op.Plain) (hblob : ∀ d, op = .blob d → d ≠ "uploads")
    (h : Handler) (hh : op.handler method = some h) :
    dispatchOCI method (op.path name) = .handle h name op.arg := by
  obtain ⟨org, repo, rfl, hsegs⟩ := validateName_segments hname
  have hall : ∀ s ∈ org :: repo :: op.segments, s ≠ "" ∧ '/' ∉ s.toList := by
    intro s hs
    rcases List.mem_append.mp (show s ∈ [org, repo] ++ op.segments from hs) with hs | hs
    · exact hsegs s hs
    · exact hop s hs
  unfold Operation.path
  rw [join_cons_fullName, dispatchOCI_join method hall (by simp), ← join_pair]
  cases op with
  | tagsList => simpa [Operation.segments, route, Operation.handler, Operation.arg] using hh
  | uploads | upload _ | manifest _ | blob _ | referrers _ =>
    simp_all [Operation.segments, route, Operation.handler, Operation.arg, routed]

theorem dispatch_keyword_name :
    dispatchOCI .get (Operation.path (.manifest "list") "blobs/tags") =
      .handle .getManifest "blobs/tags" "list" :=
  dispatch_unambiguous .get "blobs/tags" (by decide) (.manifest "list")
    (by simp [Operation.Plain, Operation.segments]) nofun .getManifest rfl

theorem dispatch_uploads_digest :
    validateName "a/b" = true ∧ Operation.Plain (.blob "uploads") ∧
    dispatchOCI .get (Operation.path (.blob "uploads") "a/b") ≠ .handle .getBlob "a/b" "uploads" ∧
    dispatchOCI .post (Operation.path (.blob "uploads") "a/b") =
      .handle .initiateUpload "a/b" "" := by
  refine ⟨by decide, by simp [Operation.Plain, Operation.segments], by decide, by decide⟩

/-- `Query().Get` reads `""` for a parameter that is absent. -/
structure Request where
  method : Verb
  path : String
  mount : String
  fromRepo : String
  digest : String

/-- The answers of storage, metadata and the upload store to one request. -/
structure Answers where
  blobExists : Option Bool
  repository : Bool
  upload : Bool
  quotaExceeded : Bool

/-- `BlobExists` makes the key again for `StatBlob` when the blob is there. -/
def blobExistsCalls (ans : Answers) (digest : String) : List String :=
  if ans.blobExists = some true then [digest, digest] else [digest]

/-- The digests given to `blobKey` by a request that passed `requireAccess`. -/
def blobKeyCalls (ans : Answers) (req : Request) : List String :=
  match dispatchOCI req.method req.path with
  | .handle .headBlob _ digest =>
    if !matchesDigestRE digest then [] else blobExistsCalls ans digest
  | .handle .getBlob _ digest =>
    if !matchesDigestRE digest then []
    else blobExistsCalls ans digest ++ if ans.blobExists = some true then [digest] else []
  | .handle .deleteBlob _ digest =>
    if !matchesDigestRE digest then [] else if ans.repository then [digest] else []
  | .handle .initiateUpload _ _ =>
    if req.mount ≠ "" ∧ req.fromRepo ≠ "" ∧ matchesDigestRE req.mount then
      blobExistsCalls ans req.mount
    else []
  | .handle .completeUpload _ _ =>
    if req.digest ≠ "" ∧ !matchesDigestRE req.digest then []
    else if ans.upload && !ans.quotaExceeded then [req.digest] else []
  | _ => []

/-- The request completes an upload that exists, with room for it in the quota. -/
def Completes (ans : Answers) (req : Request) : Prop :=
  (∃ name id, dispatchOCI req.method req.path = .handle .completeUpload name id) ∧
    ans.upload = true ∧ ans.quotaExceeded = false

theorem eq_of_mem_blobExistsCalls {ans : Answers} {digest d : String}
    (h : d ∈ blobExistsCalls ans digest) : d = digest := by
  unfold blobExistsCalls at h
  split_ifs at h <;> simpa using h

theorem matchesDigestRE_of_mem {ans : Answers} {req : Request} {d : String}
    (hput : Completes ans req → req.digest ≠ "") (h : d ∈ blobKeyCalls ans req) :
    matchesDigestRE d = true := by
  unfold blobKeyCalls at h
  split at h
  case h_1 digest _ =>
    split_ifs at h with hre
    · cases h
    · rw [eq_of_mem_blobExistsCalls h]
      simpa using hre
  case h_2 digest _ =>
    split_ifs at h with hre hex
    · cases h
    all_goals
      obtain rfl : d = digest := by simpa [blobExistsCalls, hex] using h
      simpa using hre
  case h_3 digest _ =>
    split_ifs at h with hre
    · cases h
    · rw [List.mem_singleton.mp h]
      simpa using hre
    · cases h
  case h_4 =>
    split_ifs at h with hre
    · rw [eq_of_mem_blobExistsCalls h]
      exact hre.2.2
    · cases h
  case h_5 name id hroute =>
    split_ifs at h with hre hroom
    · cases h
    · have hcompletes : Completes ans req := ⟨⟨name, id, hroute⟩, by simpa using hroom⟩
      rw [List.mem_singleton.mp h]
      simpa [hput hcompletes] using hre
    · cases h
  case h_6 => cases h

theorem length_le_byteLen (s : String) : s.toList.length ≤ byteLen s := by
  unfold byteLen Verified.Utf8.stringBytes Verified.Utf8.utf8
  induction s.toList with
  | nil => simp
  | cons c cs ih =>
    have hc := Char.utf8Size_pos c
    rw [List.flatMap_cons, List.length_append, String.length_utf8EncodeChar, List.length_cons]
    omega

theorem blobKey_in_range {d : String} (h : matchesDigestRE d = true) (tenantID : String) :
    blobKey tenantID d ≠ .error .outOfRange := by
  simp only [matchesDigestRE, Bool.and_eq_true, beq_iff_eq] at h
  obtain ⟨t, rfl⟩ := hasPrefix_iff.mp h.1.1
  have hlen : t.toList.length = 64 := by
    simpa [String.toList_append] using h.1.2
  have hbytes := length_le_byteLen t
  unfold blobKey
  rw [trimPrefix_append, if_neg (by omega)]
  split <;> simp

/-- **Blob keys are sliced in range** if and only if a request that completes an upload names a
digest. -/
theorem blob_addressing_safe_iff (ans : Answers) (req : Request) :
    (∀ d ∈ blobKeyCalls ans req, matchesDigestRE d = true ∧
      ∀ tenantID, blobKey tenantID d ≠ .error .outOfRange) ↔
      (Completes ans req → req.digest ≠ "") := by
  constructor
  · rintro h ⟨⟨name, id, hroute⟩, hupload, hquota⟩ hempty
    have hcall : "" ∈ blobKeyCalls ans req := by
      simp [blobKeyCalls, hroute, hupload, hquota, hempty]
    exact absurd (h "" hcall).1 (by decide)
  · intro hput d hd
    have hre := matchesDigestRE_of_mem hput hd
    exact ⟨hre, blobKey_in_range hre⟩

def completing (digest : String) : Request := ⟨.put, "/v2/a/b/blobs/uploads/u1", "", "", digest⟩

theorem completing_without_digest_out_of_range :
    blobKeyCalls ⟨none, true, true, false⟩ (completing "") = [""] ∧
      matchesDigestRE "" = false ∧ blobKey "t" "" = .error .outOfRange :=
  ⟨by decide, by decide, blobKey_empty "t"⟩

/-- What is left of a header without an optional `bytes ` and an optional `/<anything>`. -/
def rangeBody (s : String) : List Char := (trimPrefix s "bytes ").toList.takeWhile (· != '/')

/-- `<digits>-<digits>`, with both numbers within int64. -/
def RangeOf (s : String) (start last : Int) : Prop :=
  ∃ ds es, ∃ m n : Nat, rangeBody s = ds ++ '-' :: es ∧ parseDigits ds = some m ∧
    parseDigits es = some n ∧ m < Nat.pow 2 63 ∧ n < Nat.pow 2 63 ∧ start = m ∧ last = n

/-- Two numbers as `strconv.ParseInt` reads them, of which one carries a sign. -/
def Signed (s : String) : Prop :=
  ∃ ds es, ∃ i j : Int, rangeBody s = ds ++ '-' :: es ∧ '-' ∉ ds ∧
    parseInt 64 (String.ofList ds) = some i ∧ parseInt 64 (String.ofList es) = some j ∧
    ('+' ∈ ds.head? ∨ '+' ∈ es.head? ∨ '-' ∈ es.head?)

theorem isDigit_of_parseDigits {ds : List Char} {n : Nat} (h : parseDigits ds = some n) {c : Char}
    (hc : c ∈ ds) : c.isDigit = true := by
  unfold parseDigits at h
  split_ifs at h with hds
  exact List.all_eq_true.mp hds.2 c hc

theorem parseInt_unsigned {ds : List Char} (hplus : '+' ∉ ds.head?) (hminus : '-' ∉ ds.head?)
    {i : Int} :
    parseInt 64 (String.ofList ds) = some i ↔
      ∃ n, parseDigits ds = some n ∧ n < Nat.pow 2 63 ∧ i = n := by
  unfold parseInt
  rw [String.toList_ofList]
  split
  · simp at hminus
  · simp at hplus
  · cases h : parseDigits ds with
    | none => simp
    | some n => by_cases hn : n < Nat.pow 2 63 <;> simp [Option.filter_some, hn, eq_comm]

theorem parseContentRange_eq_some {s : String} {start last : Int} :
    parseContentRange s = some (start, last) ↔ ∃ ds es, rangeBody s = ds ++ '-' :: es ∧
      '-' ∉ ds ∧ parseInt 64 (String.ofList ds) = some start ∧
      parseInt 64 (String.ofList es) = some last := by
  unfold parseContentRange
  dsimp only
  rw [cut_getD, ← rangeBody]
  constructor
  · intro h
    split at h
    · cases h
    · rename_i a b hcut
      have hsplit := cut_toList hcut
      rw [String.toList_ofList] at hsplit
      split at h
      · rename_i hstart hlast
        rw [Option.some.injEq, Prod.mk.injEq] at h
        obtain ⟨rfl, rfl⟩ := h
        refine ⟨a.toList, b.toList, hsplit, notMem_of_cut hcut, ?_, ?_⟩
        · rw [String.ofList_toList, hstart]
        · rw [String.ofList_toList, hlast]
      · cases h
  · rintro ⟨ds, es, hsplit, hdash, hstart, hlast⟩
    rw [hsplit, cut_append hdash]
    simp only [hstart, hlast]

theorem parseContentRange_of_rangeOf {s : String} {start last : Int} (h : RangeOf s start last) :
    parseContentRange s = some (start, last) := by
  obtain ⟨ds, es, m, n, hbody, hm, hn, hmlt, hnlt, hstart, hlast⟩ := h
  have hnot (c : Char) (hc : ¬ c.isDigit = true) : c ∉ ds ∧ c ∉ es :=
    ⟨fun h => hc (isDigit_of_parseDigits hm h), fun h => hc (isDigit_of_parseDigits hn h)⟩
  have hhead (c : Char) (hc : ¬ c.isDigit = true) : c ∉ ds.head? ∧ c ∉ es.head? :=
    ⟨fun h => (hnot c hc).1 (List.mem_of_mem_head? h),
      fun h => (hnot c hc).2 (List.mem_of_mem_head? h)⟩
  have hdash := hhead '-' (by decide)
  have hplus := hhead '+' (by decide)
  exact parseContentRange_eq_some.mpr ⟨ds, es, hbody, (hnot '-' (by decide)).1,
    (parseInt_unsigned hplus.1 hdash.1).mpr ⟨m, hm, hmlt, hstart⟩,
    (parseInt_unsigned hplus.2 hdash.2).mpr ⟨n, hn, hnlt, hlast⟩⟩

theorem not_signed_of_rangeOf {s : String} {start last : Int} (h : RangeOf s start last) :
    ¬ Signed s := by
  obtain ⟨ds, es, m, n, hbody, hm, hn, -⟩ := h
  rintro ⟨ds', es', -, -, hbody', hdash', -, -, hsign⟩
  have hdash : '-' ∉ ds := fun h => absurd (isDigit_of_parseDigits hm h) (by decide)
  have hcut := (cut_append hdash).symm.trans
    ((congrArg (cut '-' <| String.ofList ·) (hbody.symm.trans hbody')).trans (cut_append hdash'))
  simp only [Option.some.injEq, Prod.mk.injEq, String.ofList_inj] at hcut
  obtain ⟨rfl, rfl⟩ := hcut
  have hdigit (c : Char) (hc : c ∈ ds.head? ∨ c ∈ es.head?) : c.isDigit = true :=
    hc.elim (fun h => isDigit_of_parseDigits hm (List.mem_of_mem_head? h))
      fun h => isDigit_of_parseDigits hn (List.mem_of_mem_head? h)
  rcases hsign with h | h | h
  · exact absurd (hdigit _ (.inl h)) (by decide)
  · exact absurd (hdigit _ (.inr h)) (by decide)
  · exact absurd (hdigit _ (.inr h)) (by decide)

/-- **`parseContentRange` accepts exactly its grammar** on every text but those of two numbers of
which one carries a sign. -/
theorem content_range_exact_iff (s : String) :
    (∀ start last, (parseContentRange s = some (start, last) ↔ RangeOf s start last) ∧
      (parseContentRange s = some (start, last) → 0 ≤ start ∧ 0 ≤ last)) ↔ ¬ Signed s := by
  constructor
  · rintro h ⟨ds, es, i, j, hbody, hdash, hi, hj, hsign⟩
    have hparse := parseContentRange_eq_some.mpr ⟨ds, es, hbody, hdash, hi, hj⟩
    exact not_signed_of_rangeOf ((h i j).1.mp hparse) ⟨ds, es, i, j, hbody, hdash, hi, hj, hsign⟩
  · intro hsign start last
    have hrange : parseContentRange s = some (start, last) → RangeOf s start last := by
      intro h
      obtain ⟨ds, es, hbody, hdash, hstart, hlast⟩ := parseContentRange_eq_some.mp h
      have hnone : ¬ ('+' ∈ ds.head? ∨ '+' ∈ es.head? ∨ '-' ∈ es.head?) := fun h =>
        hsign ⟨ds, es, start, last, hbody, hdash, hstart, hlast, h⟩
      simp only [not_or] at hnone
      have hminus : '-' ∉ ds.head? := fun h => hdash (List.mem_of_mem_head? h)
      obtain ⟨m, hm, hmlt, hstart⟩ := (parseInt_unsigned hnone.1 hminus).mp hstart
      obtain ⟨n, hn, hnlt, hlast⟩ := (parseInt_unsigned hnone.2.1 hnone.2.2).mp hlast
      exact ⟨ds, es, m, n, hbody, hm, hn, hmlt, hnlt, hstart, hlast⟩
    refine ⟨⟨hrange, parseContentRange_of_rangeOf⟩, fun h => ?_⟩
    obtain ⟨_, _, m, n, -, -, -, -, -, rfl, rfl⟩ := hrange h
    omega

theorem content_range_signed :
    parseContentRange "5--3" = some (5, -3) ∧ ¬ RangeOf "5--3" 5 (-3) ∧
      parseContentRange "+5-10" = some (5, 10) ∧ ¬ RangeOf "+5-10" 5 10 := by
  refine ⟨by decide, ?_, by decide, fun h => not_signed_of_rangeOf h ?_⟩
  · rintro ⟨_, _, m, n, -, -, -, -, -, -, hlast⟩
    omega
  · exact ⟨['+', '5'], ['1', '0'], 5, 10, by decide, by decide, by decide, by decide, by decide⟩

end OciJanus.Core.Routes
