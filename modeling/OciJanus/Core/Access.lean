import OciJanus.Auth.Roles

/-!
# Access checks of registry-core

`Covers` says what a scope covers; the round trip of the roles through name patterns decides it.
-/

namespace OciJanus.Core.Access

open Auth.Token Verified.GoStrings Auth.Roles

def trimStar (name : String) : String :=
  if hasSuffix name "*" then String.ofList name.toList.dropLast else name

def nameMatches (name repo : String) : Bool :=
  name == "*" || name == repo || (hasSuffix name "/*" && hasPrefix repo (trimStar name))

def actsOn (actions : List String) (action : String) : Bool :=
  actions.any fun act => act == action || act == "*"

def checkAccess (perms : List RepositoryAccess) (repo action : String) : Bool :=
  perms.any fun a => nameMatches a.name repo && actsOn a.actions action

def hasAction (access : List RepositoryAccess) (repo action : String) : Bool :=
  access.any fun a => (a.name == repo || a.name == "*") && actsOn a.actions action

def requireAccess (claims : TokenClaims) (perms : List RepositoryAccess)
    (repo action : String) : Bool :=
  hasAction claims.access repo action && checkAccess perms repo action

def Covers (s : Scope) (repo : String) : Prop :=
  match s.type with
  | .org => ∃ rest, repo = s.value ++ "/" ++ rest
  | _ => s.value = "*" ∨ s.value = repo ∨ ∃ p, s.value = p ++ "/*" ∧ ∃ rest, repo = p ++ "/" ++ rest

theorem trimStar_append (p : String) : trimStar (p ++ "/*") = p ++ "/" := by
  have hstar : hasSuffix (p ++ "/*") "*" = true :=
    hasSuffix_iff.mpr ⟨p ++ "/", by rw [String.append_assoc]; rfl⟩
  rw [trimStar, if_pos hstar]
  apply String.toList_inj.mp
  simp [String.toList_append]

theorem nameMatches_under (p repo : String) :
    (hasSuffix (p ++ "/*") "/*" && hasPrefix repo (trimStar (p ++ "/*"))) = true ↔
      ∃ rest, repo = p ++ "/" ++ rest := by
  have hsuf : hasSuffix (p ++ "/*") "/*" = true := hasSuffix_iff.mpr ⟨p, rfl⟩
  rw [hsuf, trimStar_append, Bool.true_and, hasPrefix_iff]

theorem nameMatches_org (v repo : String) :
    nameMatches (v ++ "/*") repo = true ↔ ∃ rest, repo = v ++ "/" ++ rest := by
  unfold nameMatches
  rw [Bool.or_eq_true, Bool.or_eq_true, nameMatches_under]
  constructor
  · rintro ((hstar | hself) | hunder)
    · have hlen := congrArg (fun s => s.toList.length) (beq_iff_eq.mp hstar)
      simp [String.toList_append] at hlen
    · exact ⟨"*", by rw [← beq_iff_eq.mp hself, String.append_assoc]; rfl⟩
    · exact hunder
  · exact Or.inr

theorem nameMatches_pattern (v repo : String) :
    nameMatches v repo = true ↔
      v = "*" ∨ v = repo ∨ ∃ p, v = p ++ "/*" ∧ ∃ rest, repo = p ++ "/" ++ rest := by
  unfold nameMatches
  constructor
  · intro h
    rw [Bool.or_eq_true, Bool.or_eq_true] at h
    rcases h with (hstar | hself) | hunder
    · exact Or.inl (beq_iff_eq.mp hstar)
    · exact Or.inr (Or.inl (beq_iff_eq.mp hself))
    · obtain ⟨p, rfl⟩ := hasSuffix_iff.mp (Bool.and_eq_true_iff.mp hunder).1
      exact Or.inr (Or.inr ⟨p, rfl, (nameMatches_under p repo).mp hunder⟩)
  · rintro (rfl | rfl | ⟨p, rfl, hrest⟩)
    · simp
    · simp
    · rw [(nameMatches_under p repo).mpr hrest]
      simp

theorem nameMatches_accessName_iff (s : Scope) (repo : String) :
    nameMatches (accessName s) repo = true ↔ Covers s repo := by
  obtain ⟨t, v⟩ := s
  cases t with
  | org => exact nameMatches_org v repo
  | repo | tenant => exact nameMatches_pattern v repo

def Includes (role action : String) : Prop :=
  action = "pull" ∨ (action = "push" ∧ 2 ≤ roleRank role) ∨ (action = "delete" ∧ 3 ≤ roleRank role)

theorem mem_actionsForRole_iff (role action : String) :
    action ∈ actionsForRole role ↔ Includes role action := by
  unfold actionsForRole Includes
  split
  · simp [roleRank]; tauto
  · simp [roleRank]; tauto
  · simp [roleRank]; tauto
  · rename_i howner hadmin hwriter
    -- Rank two and above are the three roles just excluded.
    have hrank : roleRank role < 2 := by
      unfold roleRank
      split <;> simp_all
    simp only [List.mem_singleton]
    constructor
    · exact Or.inl
    · rintro (hpull | ⟨_, hle⟩ | ⟨_, hle⟩)
      · exact hpull
      · omega
      · omega

theorem actsOn_iff {actions : List String} {action : String} :
    actsOn actions action = true ↔ action ∈ actions ∨ "*" ∈ actions := by
  rw [actsOn, List.any_eq_true]
  constructor
  · rintro ⟨act, hmem, hact⟩
    simp only [Bool.or_eq_true, beq_iff_eq] at hact
    rcases hact with rfl | rfl
    · exact Or.inl hmem
    · exact Or.inr hmem
  · rintro (hmem | hmem)
    · exact ⟨action, hmem, by simp⟩
    · exact ⟨"*", hmem, by simp⟩

theorem actsOn_actionsForRole_iff (role action : String) :
    actsOn (actionsForRole role) action = true ↔ Includes role action := by
  have hstar : "*" ∉ actionsForRole role := by
    unfold actionsForRole
    split <;> decide
  rw [← mem_actionsForRole_iff, actsOn_iff]
  constructor
  · rintro (hmem | hmem)
    · exact hmem
    · exact absurd hmem hstar
  · exact Or.inl

theorem entry_permits_iff (a : RoleAssignment) (repo action : String) :
    (nameMatches (accessName a.scope) repo && actsOn (actionsForRole a.roleName) action) = true ↔
      Includes a.roleName action ∧ Covers a.scope repo := by
  rw [Bool.and_eq_true, nameMatches_accessName_iff, actsOn_actionsForRole_iff, and_comm]

/-- **Access follows the assignments.** -/
theorem checkAccess_iff_covered (assignments : List RoleAssignment) (repo action : String) :
    checkAccess (getUserPermissions assignments) repo action = true ↔
      ∃ a ∈ assignments, Includes a.roleName action ∧ Covers a.scope repo := by
  unfold checkAccess getUserPermissions
  rw [List.any_map, List.any_eq_true]
  constructor
  · rintro ⟨a, hmem, h⟩
    exact ⟨a, hmem, (entry_permits_iff a repo action).mp h⟩
  · rintro ⟨a, hmem, h⟩
    exact ⟨a, hmem, (entry_permits_iff a repo action).mpr h⟩

def CoversWildcard (s : Scope) (repo : String) : Prop :=
  match s.type with
  | .tenant => True
  | .org => s.value = "*" ∨ ∃ rest, repo = s.value ++ "/" ++ rest
  | .repo => s.value = repo

theorem checkAccess_org_star_denied :
    ¬ ∀ (assignments : List RoleAssignment) (org repo action : String),
      checkAccess (getUserPermissions assignments) (org ++ "/" ++ repo) action = true ↔
        ∃ a ∈ assignments, Includes a.roleName action ∧
          CoversWildcard a.scope (org ++ "/" ++ repo) := by
  intro h
  have hdenied : checkAccess
      (getUserPermissions [⟨"1", "t", "u", "reader", ⟨.org, "*"⟩, ""⟩]) ("a" ++ "/" ++ "b")
        "pull" = false := by
    decide
  have hgranted := (h [⟨"1", "t", "u", "reader", ⟨.org, "*"⟩, ""⟩] "a" "b" "pull").mpr
    ⟨_, List.mem_singleton_self _, Or.inl rfl, Or.inl rfl⟩
  rw [hdenied] at hgranted
  cases hgranted

end OciJanus.Core.Access
