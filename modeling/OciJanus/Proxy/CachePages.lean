import OciJanus.Verified.Keyset
import OciJanus.Verified.MachineInt

/-!
# The pages of the proxy cache

The token holds the time of the last row as `UnixNano`, which is an `int64` and ends in April
2262.
-/

namespace OciJanus.Proxy.CachePages

open Verified.Keyset Verified.MachineInt

def epoch : Int := 62135596800000000000

structure CachedManifestRow where
  (id tenantID upstreamID : Nat)
  image : String
  fetchedAt : Int
  deriving DecidableEq

structure PageToken where
  ns : Int
  id : Nat

def unixNano (t : Int) : Int := int64 (t - epoch)

def encodePageToken (fetchedAt : Int) (id : Nat) : PageToken := ⟨unixNano fetchedAt, id⟩

def decodePageToken : Option PageToken → Int × Nat
  | none => (0, 0)
  | some token => (epoch + token.ns, token.id)

def clampLimit (limit : Int) : Nat := if limit ≤ 0 ∨ 100 < limit then 50 else limit.toNat

section
-- `ILIKE '%' || imageContains || '%'`
variable (ilike : String → String → Bool) (tenantID upstreamID : Nat) (imageContains : String)

def matching (r : CachedManifestRow) : Bool :=
  r.tenantID == tenantID && (upstreamID == 0 || r.upstreamID == upstreamID) &&
    (imageContains == "" || ilike r.image imageContains)

def sortKey (r : CachedManifestRow) : Int ×ₗ Int := toLex (-r.fetchedAt, -r.id)

def behind (afterFetched : Int) (afterID : Nat) (r : CachedManifestRow) : Bool :=
  afterFetched == 0 || r.fetchedAt < afterFetched || r.fetchedAt = afterFetched && r.id < afterID

def Repository.listCachedManifests (rows : List CachedManifestRow) (afterFetched : Int)
    (afterID : Nat) (limit : Int) : List CachedManifestRow :=
  (ordered sortKey (rows.filter fun r => behind afterFetched afterID r &&
    matching ilike tenantID upstreamID imageContains r)).take (clampLimit limit)

def listCachedManifests (rows : List CachedManifestRow) (pageSize : Int)
    (pageToken : Option PageToken) : List CachedManifestRow × Option PageToken :=
  let after := decodePageToken pageToken
  let out := Repository.listCachedManifests ilike tenantID upstreamID imageContains rows after.1
    after.2 pageSize
  (out, if out.length = clampLimit pageSize then
    out.getLast?.map fun last => encodePageToken last.fetchedAt last.id else none)

end

variable {ilike : String → String → Bool} {tenantID upstreamID : Nat} {imageContains : String}
  {rows : List CachedManifestRow} {pageSize : Int}

theorem clampLimit_pos (pageSize : Int) : 0 < clampLimit pageSize := by
  unfold clampLimit
  split_ifs <;> omega

theorem nodup_sortKey (hids : (rows.map (·.id)).Nodup) (p : CachedManifestRow → Bool) :
    ((rows.filter p).map sortKey).Nodup := by
  have hkeys : ((rows.map sortKey).map fun k => (-(ofLex k).2).toNat).Nodup := by
    simpa [Function.comp_def, sortKey] using hids
  exact hkeys.of_map.sublist (List.filter_sublist.map _)

def tokenOf (r : CachedManifestRow) : PageToken := encodePageToken r.fetchedAt r.id

/-- The rows that the token of a page with this last row leads to. -/
def later (last : Option CachedManifestRow) (r : CachedManifestRow) : Bool :=
  behind (decodePageToken (last.map tokenOf)).1 (decodePageToken (last.map tokenOf)).2 r

/-- A row that can end a page: `UnixNano` holds its time, or the rows behind it are also behind
the time that it wraps to. -/
def EndsPage (r : CachedManifestRow) (rest : List CachedManifestRow) : Prop :=
  -9223372036854775808 ≤ r.fetchedAt - epoch ∧ (r.fetchedAt - epoch < 9223372036854775808 ∨
    ∀ x ∈ rest, sortKey { r with fetchedAt := epoch + int64 (r.fetchedAt - epoch) } < sortKey x)

theorem later_iff (r x : CachedManifestRow) : later (some r) x = true ↔
    sortKey { r with fetchedAt := epoch + int64 (r.fetchedAt - epoch) } < sortKey x := by
  have hzero : epoch + int64 (r.fetchedAt - epoch) ≠ 0 := by
    unfold epoch int64
    omega
  change behind (epoch + int64 (r.fetchedAt - epoch)) r.id x = true ↔ _
  simp only [behind, sortKey, Prod.Lex.toLex_lt_toLex, Bool.or_eq_true, Bool.and_eq_true,
    decide_eq_true_eq, beq_iff_eq, hzero, false_or]
  omega

theorem ends_iff (hids : (rows.map (·.id)).Nodup) (p : CachedManifestRow → Bool)
    {read rest : List CachedManifestRow} {r : CachedManifestRow}
    (hsplit : ordered sortKey (rows.filter p) = read ++ r :: rest) :
    (∀ x ∈ rows.filter p, later (some r) x = true ↔ sortKey r < sortKey x) ↔ EndsPage r rest := by
  have hr : r ∈ rows.filter p := mem_of_split hsplit List.mem_cons_self
  simp only [later_iff]
  unfold EndsPage
  by_cases hlow : -9223372036854775808 ≤ r.fetchedAt - epoch
  · by_cases hhigh : r.fetchedAt - epoch < 9223372036854775808
    · have hsame : epoch + int64 (r.fetchedAt - epoch) = r.fetchedAt := by
        rw [int64_eq_self ⟨hlow, by omega⟩]
        omega
      simp [hsame, hlow, hhigh]
    · -- the wrapped time is earlier
      have hearlier :
          sortKey r < sortKey { r with fetchedAt := epoch + int64 (r.fetchedAt - epoch) } := by
        refine Prod.Lex.toLex_lt_toLex.mpr (Or.inl ?_)
        unfold int64
        dsimp only
        omega
      simp only [hlow, hhigh, true_and, false_or, mem_behind_iff (nodup_sortKey hids p) hsplit]
      exact ⟨fun h x hx => (h x hx.1).mpr hx.2,
        fun h x hx => ⟨hearlier.trans, fun hlt => h x ⟨hx, hlt⟩⟩⟩
  · refine iff_of_false (fun h => ?_) fun h => hlow h.1
    refine lt_irrefl (sortKey r) ((h r hr).mp (Prod.Lex.toLex_lt_toLex.mpr (Or.inl ?_)))
    unfold int64
    dsimp only
    omega

theorem listCachedManifests_paged (hids : (rows.map (·.id)).Nodup) :
    Paged (fun _ token => some (listCachedManifests ilike tenantID upstreamID imageContains rows
        pageSize token)) id sortKey
      (rows.filter (matching ilike tenantID upstreamID imageContains)) tokenOf some later
      (clampLimit pageSize) (clampLimit pageSize) where
  pos := clampLimit_pos pageSize
  bounds := ⟨le_rfl, Nat.le_succ _⟩
  nodup := nodup_sortKey hids _
  all _ := rfl
  mono last a _ b _ hab h := by
    cases last with
    | none => rfl
    | some r => exact (later_iff r b).mpr (((later_iff r a).mp h).trans hab)
  page _ last := by
    simp only [remaining, ← ordered_filter (nodup_sortKey hids _), List.filter_filter]
    cases last <;>
      simp [listCachedManifests, Repository.listCachedManifests, firstPage, later] <;> rfl

/-- **When the pages are exact**: when each full page ends with a row that its token can name. -/
theorem cache_pages_exact_iff (ilike : String → String → Bool) (tenantID upstreamID : Nat)
    (imageContains : String) (rows : List CachedManifestRow) (hids : (rows.map (·.id)).Nodup)
    (pageSize : Int) :
    (∃ out, follow (fun _ token => some (listCachedManifests ilike tenantID upstreamID imageContains
          rows pageSize token)) (out.length + 1) 0 none = some out ∧
      out.Perm (rows.filter (matching ilike tenantID upstreamID imageContains)) ∧
      out.Pairwise fun a b => sortKey a < sortKey b) ↔
      PageEnds (clampLimit pageSize) (clampLimit pageSize)
        (ordered sortKey (rows.filter (matching ilike tenantID upstreamID imageContains)))
        EndsPage := by
  rw [← PageEnds.congr fun _ _ _ => ends_iff hids _]
  simpa using (listCachedManifests_paged hids).exact_iff

def fetched (id : Nat) (t : Int) : CachedManifestRow := ⟨id, 1, 1, "library/nginx", t⟩

theorem two_manifests_listed :
    ∃ out, follow (fun _ token => some (listCachedManifests (fun _ _ => true) 1 0 ""
          [fetched 1 (epoch + 5), fetched 2 (epoch + 5)] 1 token)) (out.length + 1) 0 none =
        some out ∧
      out.Perm [fetched 1 (epoch + 5), fetched 2 (epoch + 5)] ∧
      out.Pairwise fun a b => sortKey a < sortKey b :=
  (cache_pages_exact_iff (fun _ _ => true) 1 0 "" [fetched 1 (epoch + 5), fetched 2 (epoch + 5)]
    (by decide) 1).mpr fun read r rest hsplit _ _ => by
      have hends : ∀ r ∈ [fetched 1 (epoch + 5), fetched 2 (epoch + 5)],
          -9223372036854775808 ≤ r.fetchedAt - epoch ∧
            r.fetchedAt - epoch < 9223372036854775808 := by
        decide
      have hr := hends r (mem_of_split hsplit List.mem_cons_self)
      exact ⟨hr.1, Or.inl hr.2⟩

theorem late_manifest_lost :
    follow (fun _ token => some (listCachedManifests (fun _ _ => true) 1 0 ""
      [fetched 1 (epoch + 10413792000000000000), fetched 2 (epoch + 10413792000000000000)] 1
      token)) 3 0 none = some [fetched 2 (epoch + 10413792000000000000)] := by
  decide

end OciJanus.Proxy.CachePages
