import Mathlib.Data.String.Basic
import OciJanus.Management.Requests
import OciJanus.Verified.Keyset

/-!
# The repository list

registry-metadata streams every repository of the type: it reads neither the page size nor the
token.
-/

namespace OciJanus.Management.RepositoryList

open Verified.GoStrings Verified.Keyset

/-- A row with the `config_media_type` of each of its manifests, which may be NULL. -/
structure Repo where
  (repoID tenantID org name : String)
  isPublic : Bool
  configMediaTypes : List (Option String)
  deriving DecidableEq

def configMediaTypesFor : String → Option (List String)
  | "image" =>
    some ["application/vnd.docker.container.image.v1+json",
      "application/vnd.oci.image.config.v1+json"]
  | "helm" => some ["application/vnd.cncf.helm.config.v1+json"]
  | "signature" =>
    some ["application/vnd.dev.cosign.simplesigning.v1+json",
      "application/vnd.dsse.envelope.v1+json"]
  | "sbom" => some ["application/spdx+json", "application/vnd.cyclonedx+json"]
  | _ => none

def allKnownConfigMediaTypes : List String :=
  ["image", "helm", "signature", "sbom"].flatMap fun t => (configMediaTypesFor t).getD []

/-- The `EXISTS` over the manifests of a repository; a NULL matches nothing. -/
def holds (artifactType : String) (r : Repo) : Bool :=
  if artifactType = "" then true
  else if artifactType = "other" then
    r.configMediaTypes.any fun m => m.any fun t => t = "" || t ∉ allKnownConfigMediaTypes
  else
    match configMediaTypesFor artifactType with
    | none => false
    | some types => r.configMediaTypes.any fun m => m.any (· ∈ types)

structure ListRepositoriesRequest where
  tenantID : String
  pageSize : Nat
  artifactType : String

/-- `PageSize` and `PageToken` of the request are not read. -/
def listRepositories (rows : List Repo) (req : ListRepositoriesRequest) : List Repo :=
  ordered (·.name) (rows.filter fun r => r.tenantID = req.tenantID && holds req.artifactType r)

structure Query where
  (visibility artifactType org perPage : String)

def pageSize (perPage : String) : Nat :=
  match parseInt 64 perPage with
  | some n => if 0 < n ∧ n ≤ 100 then n.toNat else 25
  | none => 25

def keeps (q : Query) (r : Repo) : Bool :=
  if q.visibility = "public" && !r.isPublic then false
  else if q.visibility = "private" && r.isPublic then false
  else if q.org ≠ "" && r.org ≠ q.org then false
  else true

def artifactTypes : List String := ["", "image", "helm", "signature", "sbom", "other"]

def handleListRepositories (rows : List Repo) (tenantID : String) (q : Query) :
    Except (Nat × String) (List Repo) :=
  if q.artifactType ∉ artifactTypes then .error (400, "invalid artifact_type")
  else if q.org ≠ "" ∧ !validateOrgName q.org then .error (400, "invalid org")
  else
    .ok ((listRepositories rows ⟨tenantID, pageSize q.perPage, q.artifactType⟩).filter (keeps q))

def Satisfies (tenantID : String) (q : Query) (r : Repo) : Prop :=
  r.tenantID = tenantID ∧ (q.visibility = "public" → r.isPublic = true) ∧
    (q.visibility = "private" → r.isPublic = false) ∧ (q.org ≠ "" → r.org = q.org) ∧
    holds q.artifactType r = true
  deriving Decidable

theorem satisfies_iff {tenantID : String} {q : Query} {r : Repo} :
    Satisfies tenantID q r ↔
      (r.tenantID = tenantID ∧ holds q.artifactType r = true) ∧ keeps q r = true := by
  unfold Satisfies keeps
  cases r.isPublic <;> grind

theorem handleListRepositories_perm (rows : List Repo) (tenantID : String) {q : Query}
    (htype : q.artifactType ∈ artifactTypes) (horg : q.org = "" ∨ validateOrgName q.org = true) :
    ∃ out, handleListRepositories rows tenantID q = .ok out ∧
      out.Perm (rows.filter fun r => Satisfies tenantID q r) := by
  have horg' : ¬ (q.org ≠ "" ∧ (!validateOrgName q.org) = true) := by
    rintro ⟨hne, hbad⟩
    rcases horg with h | h
    · exact hne h
    · simp [h] at hbad
  refine ⟨_, by rw [handleListRepositories, if_neg (not_not.mpr htype), if_neg horg'], ?_⟩
  refine ((ordered_perm _ _).filter _).trans (List.Perm.of_eq ?_)
  rw [List.filter_filter]
  refine List.filter_congr fun r _ => ?_
  rw [Bool.eq_iff_iff]
  simp [satisfies_iff, and_comm]

/-- **A filtered list is complete** exactly when its matches fit on one page: nothing cuts it. -/
theorem repository_list_complete_iff (rows : List Repo) (hrows : rows.Nodup) (tenantID : String)
    (q : Query) (htype : q.artifactType ∈ artifactTypes)
    (horg : q.org = "" ∨ validateOrgName q.org = true) :
    (∃ out, handleListRepositories rows tenantID q = .ok out ∧ out.Nodup ∧
      out.length = min (pageSize q.perPage) (rows.filter fun r => Satisfies tenantID q r).length ∧
      ∀ r ∈ out, r ∈ rows ∧ Satisfies tenantID q r) ↔
      (rows.filter fun r => Satisfies tenantID q r).length ≤ pageSize q.perPage := by
  obtain ⟨out, hout, hperm⟩ := handleListRepositories_perm rows tenantID htype horg
  constructor
  · rintro ⟨out', hout', -, hlen, -⟩
    cases hout.symm.trans hout'
    rw [hperm.length_eq] at hlen
    omega
  · intro hfit
    refine ⟨out, hout, hperm.nodup_iff.mpr (hrows.filter _), ?_, fun r hr => ?_⟩
    · rw [hperm.length_eq, Nat.min_eq_right hfit]
    · simpa using hperm.mem_iff.mp hr

def repos : List Repo := [⟨"1", "t", "acme", "a", true, []⟩, ⟨"2", "t", "acme", "b", true, []⟩]

theorem one_public_page :
    ∃ out, handleListRepositories repos "t" ⟨"public", "", "acme", "2"⟩ = .ok out ∧
      out.length = 2 := by
  obtain ⟨out, hout, -, hlen, -⟩ := (repository_list_complete_iff repos (by decide) "t"
    ⟨"public", "", "acme", "2"⟩ (by decide) (by decide)).mpr (by decide)
  exact ⟨out, hout, hlen.trans (by decide)⟩

theorem page_not_cut :
    pageSize "1" = 1 ∧
    ∃ out, handleListRepositories repos "t" ⟨"", "", "", "1"⟩ = .ok out ∧ out.length = 2 := by
  obtain ⟨out, hout, hperm⟩ := handleListRepositories_perm repos "t" (q := ⟨"", "", "", "1"⟩)
    (by decide) (by decide)
  exact ⟨by decide, out, hout, hperm.length_eq.trans (by decide)⟩

end OciJanus.Management.RepositoryList
