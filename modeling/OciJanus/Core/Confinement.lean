import OciJanus.Auth.ApiKey
import OciJanus.Core.Access
import OciJanus.Core.Bearer

/-!
# What a token from an API key can reach

The token endpoint builds the access list from the query; the scopes of the key take no part.
-/

namespace OciJanus.Core.Confinement

open Auth.Token Auth.Roles Auth.ApiKey Core.Access Core.Bearer

inductive Obtained (first : Claims) : Claims → Prop where
  | issued : Obtained first first
  | refreshed {c : Claims} (now : Int) (jti : String) (h : Obtained first c) :
      Obtained first (refreshedClaims now jti c)

theorem Obtained.tokenClaims_eq {first c : Claims} (h : Obtained first c) :
    tokenClaims c = tokenClaims first := by
  induction h with
  | issued => rfl
  | refreshed now jti _ ih => exact ih

def Confined (first : Claims) (assignments : List RoleAssignment) (scopes : List String) : Prop :=
  ∀ c, Obtained first c → ∀ repo action,
    requireAccess (tokenClaims c) (getUserPermissions assignments) repo action = true →
      action ∈ scopes

def AskedWithin (params : List String) (assignments : List RoleAssignment)
    (scopes : List String) : Prop :=
  ∀ entry ∈ parseScopes params, ∀ a ∈ assignments, (entry.name = "*" ∨ Covers a.scope entry.name) →
      ∀ action, Includes a.roleName action →
        (action ∈ entry.actions ∨ "*" ∈ entry.actions) → action ∈ scopes

theorem exists_covers (s : Scope) : ∃ repo, Covers s repo := by
  obtain ⟨t, v⟩ := s
  cases t with
  | org => exact ⟨v ++ "/" ++ "", "", rfl⟩
  | repo | tenant => exact ⟨v, Or.inr (Or.inl rfl)⟩

theorem requireAccess_iff (access : List RepositoryAccess) (user tenant : String)
    (assignments : List RoleAssignment) (repo action : String) :
    requireAccess ⟨user, tenant, access⟩ (getUserPermissions assignments) repo action = true ↔
      (∃ entry ∈ access, (entry.name = repo ∨ entry.name = "*") ∧
        (action ∈ entry.actions ∨ "*" ∈ entry.actions)) ∧
      ∃ a ∈ assignments, Includes a.roleName action ∧ Covers a.scope repo := by
  unfold requireAccess hasAction checkAccess getUserPermissions
  rw [Bool.and_eq_true, List.any_map, List.any_eq_true, List.any_eq_true]
  simp only [Bool.and_eq_true, Bool.or_eq_true, beq_iff_eq, actsOn_iff, Function.comp_apply]
  constructor
  · rintro ⟨hasked, a, hmem, hgrant⟩
    exact ⟨hasked, a, hmem, (entry_permits_iff a repo action).mp
      (by simpa [actsOn_iff] using hgrant)⟩
  · rintro ⟨hasked, a, hmem, hgrant⟩
    refine ⟨hasked, a, hmem, ?_⟩
    simpa [actsOn_iff] using (entry_permits_iff a repo action).mpr hgrant

theorem confined_iff_askedWithin (first : Claims) (params : List String)
    (assignments : List RoleAssignment) (scopes : List String)
    (hfirst : first.access = parseScopes params) :
    Confined first assignments scopes ↔ AskedWithin params assignments scopes := by
  have hreq : ∀ repo action,
      requireAccess (tokenClaims first) (getUserPermissions assignments) repo action = true ↔
        (∃ entry ∈ parseScopes params, (entry.name = repo ∨ entry.name = "*") ∧
          (action ∈ entry.actions ∨ "*" ∈ entry.actions)) ∧
        ∃ a ∈ assignments, Includes a.roleName action ∧ Covers a.scope repo := by
    intro repo action
    rw [← hfirst]
    exact requireAccess_iff first.access first.subject first.tenantID assignments repo action
  constructor
  · intro h entry hentry a ha hmeet action hrole hasked
    -- The entry's own repository, or for `*` any the assignment covers.
    by_cases hcov : Covers a.scope entry.name
    · exact h first .issued entry.name action
        ((hreq _ _).mpr ⟨⟨entry, hentry, Or.inl rfl, hasked⟩, a, ha, hrole, hcov⟩)
    · have hstar : entry.name = "*" := by
        rcases hmeet with hstar | hcov'
        · exact hstar
        · exact absurd hcov' hcov
      obtain ⟨repo, hrepo⟩ := exists_covers a.scope
      exact h first .issued repo action
        ((hreq _ _).mpr ⟨⟨entry, hentry, Or.inr hstar, hasked⟩, a, ha, hrole, hrepo⟩)
  · intro h c hc repo action hperm
    rw [hc.tokenClaims_eq] at hperm
    obtain ⟨⟨entry, hentry, hname, hasked⟩, a, ha, hrole, hcov⟩ := (hreq _ _).mp hperm
    apply h entry hentry a ha _ action hrole hasked
    rcases hname with rfl | hstar
    · exact Or.inr hcov
    · exact Or.inl hstar

/-- **When key scopes confine** the tokens obtained with the key. -/
theorem key_tokens_confined_iff {argon2 : String → String → Option Bool} {t : Tables}
    {hit : Bool} {keyID rawSecret : String} {now : Int} {vk : ValidatedKey}
    (hvk : validateAPIKey argon2 t hit ⟨keyID, rawSecret, none⟩ now = .ok vk)
    (params : List String) (jti : String) (assignments : List RoleAssignment) :
    (∀ first, token argon2 t hit keyID rawSecret params now jti = .ok first →
        Confined first assignments vk.effectiveScopes) ↔
      AskedWithin params assignments (entitledScopes t keyID) := by
  rw [validateAPIKey_effectiveScopes hvk]
  constructor
  · intro h
    have htoken : token argon2 t hit keyID rawSecret params now jti =
        .ok (issueToken now jti vk.userID vk.tenantID (parseScopes params) [] false
          vk.principalKind [] "") := by
      simp [token, hvk]
    exact (confined_iff_askedWithin _ params assignments _ rfl).mp (h _ htoken)
  · intro h first hfirst
    exact (confined_iff_askedWithin first params assignments _ (token_ok_access hfirst)).mpr h

def pullKey : APIKey := ⟨"k", "t", some "u", none, "ci", "s", ["pull"], none, true⟩

def pullTables : Tables :=
  ⟨fun id => if id = "k" then some pullKey else none, fun _ => none⟩

def plainHash (secret hash : String) : Option Bool := some (secret == hash)

def writerOfAcme : RoleAssignment := ⟨"a", "t", "u", "writer", ⟨.org, "acme"⟩, ""⟩

theorem pull_key_asked_pull :
    validateAPIKey plainHash pullTables false ⟨"k", "s", none⟩ 0 = .ok (humanKey pullKey "u") ∧
      ∀ first, token plainHash pullTables false "k" "s" ["repository:acme/app:pull"] 0 "j" =
          .ok first →
        Confined first [writerOfAcme] ["pull"] := by
  have hvk : validateAPIKey plainHash pullTables false ⟨"k", "s", none⟩ 0 =
      .ok (humanKey pullKey "u") := by
    decide +kernel
  have hparse : parseScopes ["repository:acme/app:pull"] =
      [⟨"repository", "acme/app", ["pull"]⟩] := by
    decide +kernel
  refine ⟨hvk, ?_⟩
  apply (key_tokens_confined_iff hvk ["repository:acme/app:pull"] "j" [writerOfAcme]).mpr
  intro entry hentry a _ _ action _ hasked
  rw [hparse] at hentry
  cases List.mem_singleton.mp hentry
  rcases hasked with hpull | hstar
  · exact hpull
  · exact absurd hstar (by decide)

theorem pull_key_pushes :
    ¬ ∀ (argon2 : String → String → Option Bool) (t : Tables) (hit : Bool)
        (keyID rawSecret : String) (now : Int) (vk : ValidatedKey) (params : List String)
        (jti : String) (assignments : List RoleAssignment) (first : Claims),
      validateAPIKey argon2 t hit ⟨keyID, rawSecret, none⟩ now = .ok vk →
        token argon2 t hit keyID rawSecret params now jti = .ok first →
          Confined first assignments vk.effectiveScopes := by
  intro h
  have hvk : validateAPIKey plainHash pullTables false ⟨"k", "s", none⟩ 0 =
      .ok (humanKey pullKey "u") := by
    decide +kernel
  have htoken : token plainHash pullTables false "k" "s" ["repository:acme/app:push"] 0 "j" =
      .ok (issueToken 0 "j" "u" "t" [⟨"repository", "acme/app", ["push"]⟩] [] false "human"
        [] "") := by
    decide +kernel
  have hopen : requireAccess ⟨"u", "t", [⟨"repository", "acme/app", ["push"]⟩]⟩
      (getUserPermissions [writerOfAcme]) "acme/app" "push" = true := by
    decide +kernel
  have hpush := h plainHash pullTables false "k" "s" 0 _ ["repository:acme/app:push"] "j"
    [writerOfAcme] _ hvk htoken _ .issued "acme/app" "push" hopen
  exact absurd hpush (by decide)

end OciJanus.Core.Confinement
