import OciJanus.Auth.ServiceAccount

/-!
# Disabled and deleted accounts

Disabling a service account sets a gate in Redis for 25 minutes, longer than any token lives.
-/

namespace OciJanus.Auth.Lifecycle

open Auth.Token Auth.ApiKey List
open Auth.Delegation (Text plainText)
open Verified Sha256 Run ExpiringStore Auth.ServiceAccount

variable {x : Text} {verified : Bytes → Option Claims}

def identity (sa : ServiceAccount) : String × String := (sa.id, sa.shadowUserID)

def identities (w : World) : List (String × String) := w.serviceAccounts.map identity

inductive Effect (verified : Bytes → Option Claims) (w : World) (a : Action) (w' : World) : Prop
  | quiet (time : w.now ≤ w'.now) (redis : w'.redis = w.redis)
      (issued : w'.issued = w.issued) (accounts : identities w' = identities w)
  | created (saID shadowID : String) (fresh : ∀ p ∈ identities w, p.1 ≠ saID ∧ p.2 ≠ shadowID)
      (time : w'.now = w.now) (redis : w'.redis = w.redis) (issued : w'.issued = w.issued)
      (accounts : identities w' = identities w ++ [(saID, shadowID)])
  | disabled (id tenantID shadowID : String) (mem : (id, shadowID) ∈ identities w)
      (action : a = .setDisabled id tenantID true) (time : w'.now = w.now)
      (redis : w'.redis = revokePrincipal w.redis w.now shadowID)
      (issued : w'.issued = w.issued) (accounts : identities w' = identities w)
  | enabled (id tenantID shadowID : String) (mem : (id, shadowID) ∈ identities w)
      (action : a = .setDisabled id tenantID false) (time : w'.now = w.now)
      (redis : w'.redis = restorePrincipal w.redis shadowID)
      (issued : w'.issued = w.issued) (accounts : identities w' = identities w)
  | deleted (id shadowID : String) (mem : (id, shadowID) ∈ identities w)
      (action : a = .delete id) (time : w'.now = w.now)
      (redis : w'.redis = restorePrincipal w.redis shadowID)
      (issued : w'.issued = w.issued)
      (accounts : identities w' = (identities w).filter (·.2 ≠ shadowID))
  | signed (c : Claims) (expires : ExpiresWithin workloadTokenTTL w.now c) (time : w'.now = w.now)
      (redis : w'.redis = recordIssuedJTI w.redis w.now c.subject c.id)
      (issued : w'.issued = w.issued ++ [c]) (accounts : identities w' = identities w)
  | refreshed (tok : Bytes) (jti : String) (c : Claims)
      (accepted : Accepted verified w.redis w.now tok c) (time : w'.now = w.now)
      (redis : w'.redis = revokeToken (recordIssuedJTI w.redis w.now c.subject jti) w.now c)
      (issued : w'.issued = w.issued ++ [refreshedClaims w.now jti c])
      (accounts : identities w' = identities w)

theorem issueToken_expires_workload (now : Int) (jti u t : String)
    (access : List RepositoryAccess) (roles : List String) (ga : Bool) (kind : String)
    (amr : List String) (sid : String) :
    ExpiresWithin workloadTokenTTL now (issueToken now jti u t access roles ga kind amr sid) := by
  have httl : tokenTTL ≤ workloadTokenTTL := by decide
  exact (issueToken_expires ..).mono (by omega)

theorem create_effect {w w' : World} {a : Action} {inp : ServiceAccountInput}
    {saID shadowID : String} (h : create w inp saID shadowID = .ok w') :
    Effect verified w a w' := by
  have hfresh := create_fresh h
  unfold create at h
  split at h
  · cases h
  · unfold createAtomic at h
    split_ifs at h
    cases h
    refine .created saID shadowID ?_ rfl rfl rfl (by simp [identities, identity])
    intro p hp
    obtain ⟨sa, hsa, rfl⟩ := mem_map.mp hp
    exact hfresh sa hsa

theorem update_effect {w w' : World} {a : Action} {inp : UpdateServiceAccountInput}
    (h : update w inp = .ok w') : Effect verified w a w' := by
  rw [update_ok h]
  exact .quiet le_rfl rfl rfl (map_updateRows (fun _ _ _ => rfl) _ _ _)

variable {id : String}

theorem setDisabled_effect {w w' : World} {tenantID : String} {disabled : Bool}
    (h : setDisabled w id tenantID disabled = .ok w') :
    Effect verified w (.setDisabled id tenantID disabled) w' := by
  obtain ⟨sa, hsa, rfl, rfl⟩ := setDisabled_ok h
  have hmem : identity sa ∈ identities w := mem_map_of_mem hsa
  cases disabled with
  | true =>
    exact .disabled sa.id tenantID sa.shadowUserID hmem rfl rfl rfl rfl
      (map_updateRows (fun _ _ _ => rfl) _ _ _)
  | false =>
    exact .enabled sa.id tenantID sa.shadowUserID hmem rfl rfl rfl rfl
      (map_updateRows (fun _ _ _ => rfl) _ _ _)

theorem delete_effect {w w' : World} (h : delete w id = .ok w') :
    Effect verified w (.delete id) w' := by
  obtain ⟨sa, hsa, rfl, rfl⟩ := delete_ok h
  refine .deleted sa.id sa.shadowUserID (mem_map_of_mem hsa) rfl rfl rfl rfl ?_
  unfold identities cascade
  rw [filter_map]
  rfl

theorem refresh_effect (w : World) (a : Action) (tok : Bytes) (jti : String) :
    Effect verified w a (refresh verified w tok jti) := by
  unfold refresh
  cases hr : refreshToken verified w.redis w.now jti tok with
  | error e => exact .quiet le_rfl rfl rfl rfl
  | ok p =>
    obtain ⟨c, hacc, hclaims, hredis⟩ := refreshToken_ok hr
    exact .refreshed tok jti c hacc rfl hredis (congrArg (w.issued ++ [·]) hclaims) rfl

theorem outcome_effect {w w' : World} {a : Action} (h : outcome x verified w a = .ok w') :
    Effect verified w a w' := by
  cases a with
  | create inp saID shadowID => exact create_effect h
  | update inp => exact update_effect h
  | setDisabled id tenantID disabled => exact setDisabled_effect h
  | delete id => exact delete_effect h
  | issueKey inp keyID keyHash =>
    obtain ⟨haccounts, hredis, hnow, hissued⟩ := issueKey_accounts h
    exact .quiet hnow.ge hredis hissued (congrArg (List.map identity) haccounts)
  | refreshToken tok jti =>
    cases h
    exact refresh_effect w _ tok jti
  | tick d =>
    cases h
    exact .quiet (Int.le_add_of_nonneg_right (Int.natCast_nonneg d)) rfl rfl rfl
  | role a =>
    cases h
    exact .quiet le_rfl rfl rfl rfl
  | issueToken jti u t access roles ga kind amr sid =>
    cases h
    exact .signed _ (issueToken_expires_workload ..) rfl rfl rfl rfl
  | issueWorkloadToken jti u t trust access =>
    cases h
    exact .signed _ (issueWorkloadToken_expires ..) rfl rfl rfl rfl

theorem step_effect (w : World) (a : Action) : Effect verified w a (step x verified w a) := by
  unfold step
  cases hout : outcome x verified w a with
  | error c => exact .quiet le_rfl rfl rfl rfl
  | ok w' => exact outcome_effect hout

namespace Effect

variable {w w' : World} {a : Action}

theorem now_le (h : Effect verified w a w') : w.now ≤ w'.now := by
  cases h with
  | quiet time _ _ _ => exact time
  | _ => exact Eq.ge ‹w'.now = w.now›

theorem issued (h : Effect verified w a w') :
    w'.issued = w.issued ∨
      ∃ c, ExpiresWithin workloadTokenTTL w.now c ∧ w'.issued = w.issued ++ [c] := by
  cases h with
  | signed c expires _ _ issued _ => exact Or.inr ⟨c, expires, issued⟩
  | refreshed _ _ _ _ _ _ issued _ => exact Or.inr ⟨_, issueToken_expires_workload .., issued⟩
  | _ => exact Or.inl ‹w'.issued = w.issued›

theorem mem_issued (h : Effect verified w a w') {c : Claims} (hc : c ∈ w.issued) :
    c ∈ w'.issued := by
  rcases h.issued with heq | ⟨_, _, heq⟩
  · rwa [heq]
  · rw [heq]
    exact mem_append_left _ hc

theorem stored_revoked (h : Effect verified w a w') (j : String) :
    stored w'.redis (.revoked j) = stored w.redis (.revoked j) ∨
      lookup w.redis w.now (.revoked j) = none := by
  cases h with
  | disabled _ _ _ _ _ _ redis _ _ =>
    exact Or.inl (by rw [redis]; exact stored_store_ne (by simp))
  | enabled _ _ _ _ _ _ redis _ _ =>
    exact Or.inl (by rw [redis]; exact stored_remove_ne (by simp))
  | deleted _ _ _ _ _ redis _ _ =>
    exact Or.inl (by rw [redis]; exact stored_remove_ne (by simp))
  | signed _ _ _ redis _ _ =>
    exact Or.inl (by rw [redis, recordIssuedJTI_stored (by simp)])
  | refreshed tok jti c accepted _ redis _ _ =>
    by_cases hj : j = c.id
    · right
      rw [hj]
      exact accepted.jti
    · left
      rw [redis, revokeToken_stored_ne (by simpa using hj), recordIssuedJTI_stored (by simp)]
  | _ => exact Or.inl (by rw [‹w'.redis = w.redis›])

theorem stored_gate (h : Effect verified w a w') (u : String) :
    stored w'.redis (.revokeUser u) = stored w.redis (.revokeUser u) ∨
      ∃ id, (id, u) ∈ identities w ∧ (a = .delete id ∨ (∃ t, a = .setDisabled id t false) ∨
          stored w'.redis (.revokeUser u) = some ⟨.one, w.now + revokeKeyTTL⟩) := by
  cases h with
  | disabled id t shadow mem _ _ redis _ _ =>
    by_cases hu : u = shadow
    · subst hu
      exact Or.inr ⟨id, mem, Or.inr (Or.inr (by rw [redis]; exact stored_store_self))⟩
    · exact Or.inl (by rw [redis]; exact stored_store_ne (by simpa using hu))
  | enabled id t shadow mem action _ redis _ _ =>
    by_cases hu : u = shadow
    · exact Or.inr ⟨id, hu ▸ mem, Or.inr (Or.inl ⟨t, action⟩)⟩
    · exact Or.inl (by rw [redis]; exact stored_remove_ne (by simpa using hu))
  | deleted id shadow mem action _ redis _ _ =>
    by_cases hu : u = shadow
    · exact Or.inr ⟨id, hu ▸ mem, Or.inl action⟩
    · exact Or.inl (by rw [redis]; exact stored_remove_ne (by simpa using hu))
  | signed _ _ _ redis _ _ =>
    exact Or.inl (by rw [redis, recordIssuedJTI_stored (by simp)])
  | refreshed _ _ _ _ _ redis _ _ =>
    left
    rw [redis, revokeToken_stored (by simp), recordIssuedJTI_stored (by simp)]
  | _ => exact Or.inl (by rw [‹w'.redis = w.redis›])

theorem mem_identities (h : Effect verified w a w') {p : String × String} (hp : p ∈ identities w) :
    p ∈ identities w' ∨ ∃ id, (id, p.2) ∈ identities w ∧ a = .delete id := by
  cases h with
  | created _ _ _ _ _ _ accounts =>
    exact Or.inl (by rw [accounts]; exact mem_append_left _ hp)
  | deleted id shadow mem action _ _ _ accounts =>
    by_cases hu : p.2 = shadow
    · exact Or.inr ⟨id, by rwa [hu], action⟩
    · exact Or.inl (by rw [accounts]; exact mem_filter.mpr ⟨hp, by simpa using hu⟩)
  | _ => exact Or.inl (by rwa [‹identities w' = identities w›])

end Effect

def Keyed (w : World) : Prop :=
  ∀ p ∈ identities w, ∀ q ∈ identities w, p.1 = q.1 ↔ p.2 = q.2

def IssuedBounded (w : World) : Prop :=
  ∀ c ∈ w.issued, ExpiresWithin workloadTokenTTL w.now c

theorem Effect.issuedBounded {w w' : World} {a : Action} (h : Effect verified w a w')
    (hw : IssuedBounded w) : IssuedBounded w' := by
  intro c hc
  have hle := h.now_le
  rcases h.issued with heq | ⟨new, hnew, heq⟩
  · rw [heq] at hc
    exact (hw c hc).mono (by omega)
  · rw [heq, mem_append, mem_singleton] at hc
    rcases hc with hold | rfl
    · exact (hw c hold).mono (by omega)
    · exact hnew.mono (by omega)

theorem Effect.keyed {w w' : World} {a : Action} (h : Effect verified w a w')
    (hw : Keyed w) : Keyed w' := by
  unfold Keyed at hw ⊢
  cases h with
  | deleted _ _ _ _ _ _ _ accounts =>
    rw [accounts]
    intro p hp q hq
    exact hw p (mem_filter.mp hp).1 q (mem_filter.mp hq).1
  | created saID shadowID fresh _ _ _ accounts =>
    rw [accounts]
    intro p hp q hq
    simp only [mem_append, mem_singleton] at hp hq
    rcases hp with hp | rfl <;> rcases hq with hq | rfl
    · exact hw p hp q hq
    · simp [fresh p hp]
    · simp [(fresh q hq).1.symm, (fresh q hq).2.symm]
    · simp
  | _ => rwa [‹identities w' = identities w›]

def Gated (w : World) (c : Claims) : Prop :=
  ∃ e v d, c.expiresAt = some e ∧ stored w.redis (.revokeUser c.subject) = some ⟨v, d⟩ ∧ e ≤ d

variable {c : Claims}

theorem Effect.dead {w w' : World} {a : Action} (h : Effect verified w a w')
    (hdead : Dead w.redis w.now c) : Dead w'.redis w'.now c := by
  rcases h.stored_revoked c.id with hsame | hnone
  · exact hdead.of_stored_eq h.now_le hsame
  · exact hdead.of_lookup_none h.now_le hnone

theorem Gated.not_accepted {w : World} {tok : Bytes} (h : Gated w c) :
    ¬ Accepted verified w.redis w.now tok c := by
  intro hacc
  obtain ⟨e, v, d, he, hstored, hed⟩ := h
  have hlt := hacc.now_lt he
  have hlook := lookup_eq_some_iff.mpr ⟨d, hstored, show w.now < d by omega⟩
  rw [hacc.user] at hlook
  cases hlook

def DeleteSafe (w : World) : Action → Prop
  | .delete id => ∀ sa ∈ w.serviceAccounts, sa.id = id →
      ∀ c ∈ w.issued, c.subject = sa.shadowUserID → Dead w.redis w.now c
  | _ => True

structure Shut (id : String) (c : Claims) (w : World) : Prop where
  keyed : Keyed w
  bounded : IssuedBounded w
  issued : c ∈ w.issued
  shut : Dead w.redis w.now c ∨ (Gated w c ∧ (id, c.subject) ∈ identities w)

theorem deleteSafe_dead {w : World}
    (hsafe : DeleteSafe w (.delete id)) (hmem : (id, c.subject) ∈ identities w)
    (hc : c ∈ w.issued) : Dead w.redis w.now c := by
  obtain ⟨sa, hsa, hident⟩ := mem_map.mp hmem
  obtain ⟨hid, hsub⟩ := Prod.mk.inj hident
  exact hsafe sa hsa hid c hc hsub.symm

theorem step_shut {w : World} {a : Action} (hw : Shut id c w)
    (hG : DeleteSafe w a ∧ ∀ t, a ≠ .setDisabled id t false) : Shut id c (step x verified w a) := by
  have heff : Effect verified w a (step x verified w a) := step_effect w a
  refine ⟨heff.keyed hw.keyed, heff.issuedBounded hw.bounded, heff.mem_issued hw.issued, ?_⟩
  obtain ⟨hsafe, hnot⟩ := hG
  rcases hw.shut with hdead | ⟨⟨e, v, d, he, hgate, hed⟩, hmem⟩
  · exact Or.inl (heff.dead hdead)
  · rcases heff.mem_identities hmem with hmem' | ⟨id', hid', rfl⟩
    · rcases heff.stored_gate c.subject with hsame | ⟨id', hid', rfl | ⟨t, rfl⟩ | hset⟩
      · exact Or.inr ⟨⟨e, v, d, he, by rw [hsame, hgate], hed⟩, hmem'⟩
      · exact Or.inl (heff.dead (deleteSafe_dead hsafe hid' hw.issued))
      · have hids : id' = id := (hw.keyed _ hid' _ hmem).mpr rfl
        exact absurd (by rw [hids]) (hnot t)
      · obtain ⟨e', he', hbound⟩ := hw.bounded c hw.issued
        cases he.symm.trans he'
        have httl : workloadTokenTTL ≤ revokeKeyTTL := by decide
        exact Or.inr ⟨⟨e, _, _, he, hset, by omega⟩, hmem'⟩
    · exact Or.inl (heff.dead (deleteSafe_dead hsafe hid' hw.issued))

variable {sa : ServiceAccount}

theorem setDisabled_of_mem {w : World} (hsa : sa ∈ w.serviceAccounts)
    (disabled : Bool) : ∃ w', setDisabled w sa.id sa.tenantID disabled = .ok w' := by
  have hsome : (w.serviceAccounts.find?
      (selects ⟨sa.id, sa.tenantID, none, none, some disabled, ""⟩)).isSome := by
    rw [List.find?_isSome]
    exact ⟨sa, hsa, by simp [selects]⟩
  obtain ⟨row, hrow⟩ := Option.isSome_iff_exists.mp hsome
  simp [setDisabled, repoUpdate, hrow]

theorem step_disable_gated {w : World} (hkeyed : Keyed w)
    (hbounded : IssuedBounded w) (hsa : sa ∈ w.serviceAccounts) (hc : c ∈ w.issued)
    (hsub : c.subject = sa.shadowUserID) :
    Gated (step x verified w (.setDisabled sa.id sa.tenantID true)) c ∧ (sa.id, c.subject) ∈
        identities (step x verified w (.setDisabled sa.id sa.tenantID true)) := by
  obtain ⟨w', hok⟩ := setDisabled_of_mem hsa true
  have hstep : step x verified w (.setDisabled sa.id sa.tenantID true) = w' := by
    simp [step, outcome, hok]
  rw [hstep, hsub]
  have hmem : (sa.id, sa.shadowUserID) ∈ identities w := mem_map_of_mem hsa
  obtain ⟨sa', hsa', hid, rfl⟩ := setDisabled_ok hok
  have hmem' : (sa'.id, sa'.shadowUserID) ∈ identities w := mem_map_of_mem hsa'
  have hshadow : sa'.shadowUserID = sa.shadowUserID := (hkeyed _ hmem' _ hmem).mp hid
  constructor
  · obtain ⟨e, he, hle⟩ := hbounded c hc
    have httl : workloadTokenTTL ≤ revokeKeyTTL := by decide
    refine ⟨e, .one, w.now + revokeKeyTTL, he, ?_, by omega⟩
    rw [hsub, ← hshadow]
    exact stored_store_self
  · show _ ∈ (updateRows _ _ _).map identity
    rw [map_updateRows (fun _ _ _ => rfl)]
    exact hmem

def Ousts (sa : ServiceAccount) (a : Action) : Prop :=
  a = .setDisabled sa.id sa.tenantID true ∨ a = .delete sa.id

theorem step_ousts {w : World} {a : Action}
    (hkeyed : Keyed w) (hbounded : IssuedBounded w) (hsafe : DeleteSafe w a)
    (hsa : sa ∈ w.serviceAccounts) (ha : Ousts sa a) (hc : c ∈ w.issued)
    (hsub : c.subject = sa.shadowUserID) : Shut sa.id c (step x verified w a) := by
  have heff : Effect verified w a (step x verified w a) := step_effect w a
  refine ⟨heff.keyed hkeyed, heff.issuedBounded hbounded, heff.mem_issued hc, ?_⟩
  rcases ha with rfl | rfl
  · exact Or.inr (step_disable_gated hkeyed hbounded hsa hc hsub)
  · exact Or.inl (heff.dead (hsafe sa hsa rfl c hc hsub))

def start (roles : Delegation.State) (now : Int) : World :=
  ⟨roles, [], [], Store.empty, now, []⟩

theorem run_keyed_bounded {G : World → Action → Prop} {roles : Delegation.State} {now : Int}
    {acts : List Action} (hG : Guarded (step x verified) G (start roles now) acts) :
    Keyed (run (step x verified) (start roles now) acts) ∧
      IssuedBounded (run (step x verified) (start roles now) acts) := by
  refine run_invariant (I := fun w => Keyed w ∧ IssuedBounded w) (fun w a hw _ => ?_) ?_ hG
  · exact ⟨(step_effect w a).keyed hw.1, (step_effect w a).issuedBounded hw.2⟩
  · exact ⟨by simp [Keyed, identities, start], by simp [IssuedBounded, start]⟩

def StaysOut (x : Text) (verified : Bytes → Option Claims) (w : World)
    (acts : List Action) : Prop :=
  ∀ before a later sa, acts = before ++ a :: later →
    sa ∈ (run (step x verified) w before).serviceAccounts → Ousts sa a →
      (∀ t, .setDisabled sa.id t false ∉ later) →
        ∀ c ∈ (run (step x verified) w before).issued, c.subject = sa.shadowUserID →
          ∀ tok, verified tok = some c → ∀ k,
            validateToken verified (run (step x verified) w acts).redis
              (run (step x verified) w acts).now tok ≠ .ok k

/-- **A disabled or deleted account stays out.** -/
theorem ousted_stays_out (x : Text) (verified : Bytes → Option Claims)
    (roles : Delegation.State) (now : Int) (acts : List Action)
    (hG : Guarded (step x verified) DeleteSafe (start roles now) acts) :
    StaysOut x verified (start roles now) acts := by
  rintro before a later sa rfl hsa ha hlater c hc hsub tok htok k hvalid
  obtain ⟨hbefore, hsafe, hGlater⟩ := guarded_append.mp hG
  obtain ⟨hkeyed, hbounded⟩ := run_keyed_bounded hbefore
  have hshut : Shut sa.id c (step x verified (run (step x verified) (start roles now) before) a) :=
    step_ousts hkeyed hbounded hsafe hsa ha hc hsub
  have hnot : ∀ b ∈ later, ∀ t, b ≠ .setDisabled sa.id t false := by
    rintro b hb t rfl
    exact hlater t hb
  have hend := run_invariant (fun w b => step_shut) hshut (hGlater.and (guarded_of_forall hnot))
  rw [run_append] at hvalid
  have hacc := validateToken_ok_iff.mp hvalid
  have hk : k = c := Option.some.inj (hacc.signed.symm.trans htok)
  subst hk
  rcases hend.shut with hdead | ⟨hgated, _⟩
  · exact hdead.not_accepted hacc
  · exact hgated.not_accepted hacc

def botClaims : Claims :=
  issueToken 0 "j1" "shadow1" "t" [] [] false "service_account" [] ""

def botToken : Bytes := [1]

def botVerified (tok : Bytes) : Option Claims := if tok = botToken then some botClaims else none

def botWithToken : List Action :=
  [createBot ["pull"], .issueToken "j1" "shadow1" "t" [] [] false "service_account" [] ""]

theorem disabled_bot_stays_out :
    validateToken botVerified (run (step plainText botVerified) (start worldOfAnn.roles 0)
        (botWithToken ++ [.setDisabled "sa1" "t" true, .tick 300000000000, .delete "sa1"])).redis
      (run (step plainText botVerified) (start worldOfAnn.roles 0)
        (botWithToken ++ [.setDisabled "sa1" "t" true, .tick 300000000000, .delete "sa1"])).now
      botToken ≠ .ok botClaims := by
  refine ousted_stays_out plainText botVerified worldOfAnn.roles 0 _ ?_ botWithToken
    (.setDisabled "sa1" "t" true) [.tick 300000000000, .delete "sa1"]
    ⟨"sa1", "t", "shadow1", "bot", ["pull"], none⟩ rfl (by decide +kernel) (Or.inl rfl)
    (by simp) botClaims (by decide +kernel) rfl botToken rfl botClaims
  refine ⟨trivial, trivial, trivial, trivial, ?_, trivial⟩
  intro sa _ _ c hc _
  have hissued : (run (step plainText botVerified) (start worldOfAnn.roles 0)
      (botWithToken ++ [.setDisabled "sa1" "t" true, .tick 300000000000])).issued =
        [botClaims] := by
    decide +kernel
  have hmem : c ∈ [botClaims] := hissued ▸ hc
  cases mem_singleton.mp hmem
  exact ⟨_, rfl, Or.inl (by decide +kernel)⟩

theorem deleted_bot_validates :
    ¬ ∀ (x : Text) (verified : Bytes → Option Claims) (roles : Delegation.State) (now : Int)
      (acts : List Action), StaysOut x verified (start roles now) acts := by
  intro h
  refine h plainText botVerified worldOfAnn.roles 0 (botWithToken ++ [.delete "sa1"])
    botWithToken (.delete "sa1") [] ⟨"sa1", "t", "shadow1", "bot", ["pull"], none⟩ rfl
    (by decide +kernel) (Or.inr rfl) (by simp) botClaims (by decide +kernel) rfl botToken rfl
    botClaims ?_
  decide +kernel

end OciJanus.Auth.Lifecycle
