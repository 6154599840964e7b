import OciJanus.Auth.Token
import OciJanus.Verified.GoStrings

/-!
# Roles, scopes and what they allow

A role name is a string, since each function has a branch for unknown names.
-/

namespace OciJanus.Auth.Roles

open Auth.Token Verified.GoStrings

inductive ScopeType where
  | org
  | repo
  | tenant
  deriving DecidableEq

def ScopeType.ofString : String → Option ScopeType
  | "org" => some .org
  | "repo" => some .repo
  | "tenant" => some .tenant
  | _ => none

structure Scope where
  type : ScopeType
  value : String
  deriving DecidableEq

structure RoleAssignment where
  (id tenantID userID roleName : String)
  scope : Scope
  grantedBy : String
  deriving DecidableEq

def actionsForRole : String → List String
  | "owner" => ["push", "pull", "delete"]
  | "admin" => ["push", "pull", "delete"]
  | "writer" => ["push", "pull"]
  | _ => ["pull"]

def effectiveActionsForRole : String → List String
  | "owner" => ["push", "pull", "delete"]
  | "admin" => ["push", "pull", "delete"]
  | "writer" => ["push", "pull"]
  | "reader" => ["pull"]
  | _ => []

def accessName (s : Scope) : String :=
  match s.type with
  | .org => s.value ++ "/*"
  | _ => s.value

def getUserPermissions (assignments : List RoleAssignment) : List RepositoryAccess :=
  assignments.map fun a =>
    ⟨"repository", accessName a.scope, actionsForRole a.roleName⟩

def roleRank : String → Nat
  | "owner" => 4
  | "admin" => 3
  | "writer" => 2
  | "reader" => 1
  | _ => 0

def Implied (role action : String) : Prop :=
  (action = "pull" ∧ 1 ≤ roleRank role) ∨ (action = "push" ∧ 2 ≤ roleRank role) ∨
    (action = "delete" ∧ 3 ≤ roleRank role)

theorem mem_effectiveActionsForRole_iff (role action : String) :
    action ∈ effectiveActionsForRole role ↔ Implied role action := by
  unfold effectiveActionsForRole Implied
  split
  · simp [roleRank]; tauto
  · simp [roleRank]; tauto
  · simp [roleRank]; tauto
  · simp [roleRank]
  · rename_i howner hadmin hwriter hreader
    have hrank : roleRank role = 0 := by
      unfold roleRank
      split <;> simp_all
    simp [hrank]

def scopeDominates (holder target : Scope) : Bool :=
  if holder = target then true
  else
    match holder.type, target.type with
    | .tenant, .org => true
    | .tenant, .repo => true
    | .org, .repo => hasPrefix target.value (holder.value ++ "/")
    | _, _ => false

theorem scopeDominates_iff {s t : Scope} :
    scopeDominates s t = true ↔ s = t ∨ (s.type = .tenant ∧ t.type ≠ .tenant) ∨
        (s.type = .org ∧ t.type = .repo ∧ ∃ r, t.value = s.value ++ "/" ++ r) := by
  obtain ⟨st, sv⟩ := s
  obtain ⟨tt, tv⟩ := t
  unfold scopeDominates
  by_cases heq : (⟨st, sv⟩ : Scope) = ⟨tt, tv⟩
  · simp [heq]
  · cases st <;> cases tt <;> simp [heq, hasPrefix_iff]

theorem scopeDominates_trans {s t u : Scope} (hst : scopeDominates s t = true)
    (htu : scopeDominates t u = true) : scopeDominates s u = true := by
  rw [scopeDominates_iff] at hst htu ⊢
  rcases hst with rfl | ⟨hs, ht⟩ | ⟨hs, ht, r, hr⟩
  · exact htu
  · right; left
    rcases htu with rfl | ⟨ht', _⟩ | ⟨_, hu, _⟩
    · exact ⟨hs, ht⟩
    · exact absurd ht' ht
    · exact ⟨hs, by simp [hu]⟩
  · -- A repo dominates nothing but itself.
    rcases htu with rfl | ⟨ht', _⟩ | ⟨ht', _⟩
    · exact Or.inr (Or.inr ⟨hs, ht, r, hr⟩)
    · rw [ht] at ht'
      cases ht'
    · rw [ht] at ht'
      cases ht'

end OciJanus.Auth.Roles
