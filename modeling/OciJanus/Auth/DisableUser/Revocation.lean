import OciJanus.Auth.DisableUser.Steps

/-!
# Disabling a user while tokens are issued

`RefreshToken` never looks at the user's status, so a token that the revocation misses can be
refreshed for ever.
-/

namespace OciJanus.Auth.DisableUser

open Verified Sha256 Run ExpiringStore KeyedTable Auth.Token Auth.Roles Auth.Login List Function

def Recorded (r : Redis) (c : Claims) : Prop :=
  ∃ e xs d, c.expiresAt = some e ∧ stored r (.userJTIs c.subject) = some ⟨.members xs, d⟩ ∧
    c.id ∈ xs ∧ e ≤ d

structure Inv (w : World) : Prop where
  unique : ∀ c ∈ w.issued, ∀ c' ∈ w.issued, c.id = c'.id → c = c'
  named : ∀ c ∈ w.issued, c.id ≠ "" ∧ c.subject ≠ ""
  bounded : ∀ c ∈ w.issued, ExpiresWithin tokenTTL w.now c
  held : ∀ p, ∀ c ∈ (w.procs p).claims, c ∈ w.issued
  tracked : ∀ c ∈ w.issued,
    Dead w.redis w.now c ∨ Recorded w.redis c ∨ ∃ p, (w.procs p).pending = some c
  passes : ∀ p u jtis, (w.procs p).pass = some (u, jtis) →
    ∀ c ∈ w.issued, c.subject = u → Dead w.redis w.now c ∨ c.id ∈ jtis

/-- Nobody issues a token for a user whose tokens are being revoked. -/
def Exclusive (w : World) : Prop :=
  ∀ p q u jtis, (w.procs p).issuing = some u → (w.procs q).pass ≠ some (u, jtis)

def Unforged (env : Env) (w : World) : Action → Prop
  | .refreshValidate _ tok => ∀ c, env.verified tok = some c → c.typ = "" → c ∈ w.issued
  | _ => True

section Redis

variable {r : Redis} {now : Int} {c : Claims}

theorem sAdd_self (xs : List String) (j : String) : j ∈ sAdd xs j := by
  unfold sAdd
  split_ifs with h
  · exact h
  · simp

theorem mem_sAdd {xs : List String} {i : String} (h : i ∈ xs) (j : String) : i ∈ sAdd xs j := by
  unfold sAdd
  split_ifs
  · exact h
  · simp [h]

theorem Recorded.dead_or_mem (h : Recorded r c) (now : Int) :
    Dead r now c ∨ c.id ∈ userJTIs r now c.subject := by
  obtain ⟨e, xs, d, he, hstored, hmem, hed⟩ := h
  by_cases hlive : now < d
  · right
    have hlook := lookup_eq_some_iff.mpr ⟨d, hstored, hlive⟩
    simpa [userJTIs, hlook] using hmem
  · exact Or.inl ⟨e, he, Or.inl (by omega)⟩

theorem recordIssuedJTI_recorded (hnamed : c.id ≠ "" ∧ c.subject ≠ "")
    (hexp : ExpiresWithin tokenTTL now c) : Recorded (recordIssuedJTI r now c.subject c.id) c := by
  obtain ⟨e, he, hle⟩ := hexp
  have httl : tokenTTL ≤ userJTISetTTL := by decide
  have hne : ¬ (c.subject = "" ∨ c.id = "") := by simp [hnamed]
  exact ⟨e, _, _, he, recordIssuedJTI_stored_self hne, sAdd_self _ _, by omega⟩

theorem Recorded.recordIssuedJTI (h : Recorded r c) (hexp : ExpiresWithin tokenTTL now c)
    (u j : String) : Dead r now c ∨ Recorded (recordIssuedJTI r now u j) c := by
  by_cases hnoop : u = "" ∨ j = ""
  · right
    unfold Token.recordIssuedJTI
    rwa [if_pos hnoop]
  by_cases hu : c.subject = u
  · rcases h.dead_or_mem now with hdead | hmem
    · exact Or.inl hdead
    · right
      obtain ⟨e, he, hle⟩ := hexp
      have httl : tokenTTL ≤ userJTISetTTL := by decide
      subst hu
      exact ⟨e, _, _, he, recordIssuedJTI_stored_self hnoop, mem_sAdd hmem j, by omega⟩
  · right
    obtain ⟨e, xs, d, he, hstored, hmem, hed⟩ := h
    refine ⟨e, xs, d, he, ?_, hmem, hed⟩
    unfold Token.recordIssuedJTI
    rw [if_neg hnoop, stored_store_ne (by simpa using hu)]
    exact hstored

theorem Recorded.of_stored_eq {r' : Redis} (h : Recorded r c)
    (hsame : stored r' (.userJTIs c.subject) = stored r (.userJTIs c.subject)) : Recorded r' c := by
  obtain ⟨e, xs, d, he, hstored, hrest⟩ := h
  exact ⟨e, xs, d, he, by rw [hsame, hstored], hrest⟩

theorem dead_revokeToken {e : Int} (he : c.expiresAt = some e) :
    Dead (revokeToken r now c) now c := by
  refine ⟨e, he, ?_⟩
  unfold revokeToken
  by_cases hle : e - now ≤ 0
  · exact Or.inl (by omega)
  · right
    refine ⟨.one, now + (e - now), ?_, by omega⟩
    simp [he, hle]

theorem dead_store_revoked (hexp : ExpiresWithin tokenTTL now c) :
    Dead (store r now (.revoked c.id) .one tokenTTL) now c := by
  obtain ⟨e, he, hle⟩ := hexp
  exact ⟨e, he, Or.inr ⟨.one, now + tokenTTL, stored_store_self, hle⟩⟩

end Redis

section Preservation

variable {env : Env} {w w' : World} {a : Action} {c : Claims}

theorem Effect.now_le (h : Effect env w a w') : w.now ≤ w'.now := by
  cases h
  case time time _ _ _ _ => exact time
  all_goals exact Eq.ge ‹w'.now = w.now›

theorem Effect.dead (h : Effect env w a w') (hw : Inv w) (hc : c ∈ w.issued)
    (hdead : Dead w.redis w.now c) : Dead w'.redis w'.now c := by
  have hkeep (hsame : stored w'.redis (.revoked c.id) = stored w.redis (.revoked c.id)) :=
    hdead.of_stored_eq h.now_le hsame
  cases h with
  | recorded _ _ _ _ _ _ _ redis =>
    exact hkeep (by rw [redis, recordIssuedJTI_stored (by simp)])
  | cleared _ _ _ _ _ redis => exact hkeep (by rw [redis, stored_remove_ne (by simp)])
  | revokedOld p old before time redis =>
    by_cases hid : c.id = old.id
    · have hold : old ∈ w.issued := hw.held p old (by simp [before, Proc.claims])
      obtain rfl := hw.unique c hc old hold hid
      obtain ⟨e, he, _⟩ := hdead
      rw [redis, time]
      exact dead_revokeToken he
    · exact hkeep (by rw [redis, revokeToken_stored_ne (by simpa using hid)])
  | wrote p u j jtis d _ time redis =>
    by_cases hid : c.id = j
    · rw [redis, time, ← hid]
      exact dead_store_revoked (hw.bounded c hc)
    · exact hkeep (by rw [redis, stored_store_ne (by simpa using hid)])
  | _ => exact hkeep (by rw [‹w'.redis = w.redis›])

theorem Effect.issued (h : Effect env w a w') :
    w'.issued = w.issued ∨
      ∃ p c, (w.procs p).issuing = some c.subject ∧ (∀ c' ∈ w.issued, c'.id ≠ c.id) ∧
        (c.id ≠ "" ∧ c.subject ≠ "") ∧ ExpiresWithin tokenTTL w.now c ∧
          w'.issued = w.issued ++ [c] := by
  cases h with
  | signed p c _ issuing _ _ fresh named expires _ _ issued =>
    exact Or.inr ⟨p, c, issuing, fresh, named, expires, issued⟩
  | _ => exact Or.inl ‹w'.issued = w.issued›

theorem Effect.issued_cases (h : Effect env w a w') (hc : c ∈ w'.issued) :
    c ∈ w.issued ∨ ∃ p, (w.procs p).issuing = some c.subject ∧ (∀ c' ∈ w.issued, c'.id ≠ c.id) ∧
      (c.id ≠ "" ∧ c.subject ≠ "") ∧ ExpiresWithin tokenTTL w.now c := by
  rcases h.issued with heq | ⟨p, new, hissuing, hfresh, hnamed, hexp, heq⟩
  · exact Or.inl (heq ▸ hc)
  · rw [heq, mem_append, mem_singleton] at hc
    rcases hc with hc | rfl
    · exact Or.inl hc
    · exact Or.inr ⟨p, hissuing, hfresh, hnamed, hexp⟩

theorem Effect.unique (h : Effect env w a w') (hw : Inv w) :
    ∀ c ∈ w'.issued, ∀ c' ∈ w'.issued, c.id = c'.id → c = c' := by
  rcases h.issued with heq | ⟨p, new, _, hfresh, _, _, heq⟩
  · rw [heq]
    exact hw.unique
  · rw [heq]
    intro c hc c' hc' hid
    simp only [mem_append, mem_singleton] at hc hc'
    rcases hc with hc | rfl <;> rcases hc' with hc' | rfl
    · exact hw.unique c hc c' hc' hid
    · exact absurd hid (hfresh c hc)
    · exact absurd hid.symm (hfresh c' hc')
    · rfl

theorem Effect.named (h : Effect env w a w') (hw : Inv w) :
    ∀ c ∈ w'.issued, c.id ≠ "" ∧ c.subject ≠ "" := by
  intro c hc
  rcases h.issued_cases hc with hc | ⟨_, _, _, hnamed, _⟩
  · exact hw.named c hc
  · exact hnamed

theorem Effect.bounded (h : Effect env w a w') (hw : Inv w) :
    ∀ c ∈ w'.issued, ExpiresWithin tokenTTL w'.now c := by
  intro c hc
  have hle := h.now_le
  rcases h.issued_cases hc with hc | ⟨_, _, _, _, hexp⟩
  · exact (hw.bounded c hc).mono (by omega)
  · exact hexp.mono (by omega)

variable {s : Proc}

theorem Inv.held_update (hw : Inv w) {p : Nat} (hissued : w'.issued = w.issued)
    (hprocs : w'.procs = update w.procs p s) (hs : ∀ c ∈ s.claims, c ∈ w.issued) :
    ∀ q, ∀ c ∈ (w'.procs q).claims, c ∈ w'.issued := by
  rw [hprocs, hissued]
  exact (Function.forall_update_iff w.procs fun _ s => ∀ c ∈ s.claims, c ∈ w.issued).mpr
    ⟨hs, fun q _ => hw.held q⟩

theorem Effect.held (h : Effect env w a w') (hw : Inv w) (hforge : Unforged env w a) :
    ∀ p, ∀ c ∈ (w'.procs p).claims, c ∈ w'.issued := by
  cases h with
  | time _ _ issued procs _ =>
    rw [procs, issued]
    exact hw.held
  | move p s _ _ issued procs _ _ claims =>
    exact hw.held_update issued procs fun c hc => hw.held p c (claims c hc)
  | recorded p c s _ _ claims _ _ issued procs =>
    exact hw.held_update issued procs fun c hc => hw.held p c (claims c hc)
  | validated p tok c action accepted _ _ issued procs =>
    subst action
    refine hw.held_update issued procs fun c' hc' => ?_
    cases mem_singleton.mp hc'
    exact hforge c accepted.signed accepted.access
  | signed p c old _ _ claims _ _ _ _ _ issued procs =>
    rw [procs, issued]
    refine (Function.forall_update_iff w.procs fun _ s => ∀ o ∈ s.claims, o ∈ _).mpr
      ⟨fun c' hc' => ?_, fun q _ c' hc' => mem_append_left _ (hw.held q c' hc')⟩
    rcases mem_cons.mp hc' with rfl | hold
    · simp
    · exact mem_append_left _ (hw.held p c' (claims c' (by simpa using hold)))
  | read p u s _ _ quiet _ _ issued procs =>
    exact hw.held_update issued procs (by simp [quiet.2.1])
  | _ => exact hw.held_update ‹_› ‹_› (by simp [Proc.claims])

theorem Effect.recorded_or_dead (h : Effect env w a w') (hw : Inv w) (hc : c ∈ w.issued)
    (hrec : Recorded w.redis c) : Dead w'.redis w'.now c ∨ Recorded w'.redis c := by
  have hkeep := h.dead hw hc
  cases h with
  | recorded p c' _ _ _ _ _ redis =>
    rcases hrec.recordIssuedJTI (hw.bounded c hc) c'.subject c'.id with hdead | hrec'
    · exact Or.inl (hkeep hdead)
    · exact Or.inr (by rwa [redis])
  | revokedOld _ _ _ _ redis =>
    exact Or.inr (hrec.of_stored_eq (by rw [redis, revokeToken_stored (by simp)]))
  | wrote _ _ _ _ _ _ _ redis =>
    exact Or.inr (hrec.of_stored_eq (by rw [redis, stored_store_ne (by simp)]))
  | cleared p u d before _ redis =>
    by_cases hu : c.subject = u
    · rcases hw.passes p u [] (by rw [before]; rfl) c hc hu with hdead | hmem
      · exact Or.inl (hkeep hdead)
      · cases hmem
    · exact Or.inr (hrec.of_stored_eq (by rw [redis, stored_remove_ne (by simpa using hu)]))
  | _ => exact Or.inr (by rwa [‹w'.redis = w.redis›])

theorem pending_persists {p : Nat}
    (hprocs : w'.procs = update w.procs p s) (hsettled : (w.procs p).pending = none)
    (h : ∃ q, (w.procs q).pending = some c) : ∃ q, (w'.procs q).pending = some c := by
  obtain ⟨q, hq⟩ := h
  have hne : q ≠ p := by
    rintro rfl
    cases hsettled.symm.trans hq
  exact ⟨q, by rw [hprocs, update_of_ne hne, hq]⟩

theorem Effect.pending (h : Effect env w a w') (hw : Inv w) (hc : c ∈ w.issued)
    (hpend : ∃ p, (w.procs p).pending = some c) :
    Recorded w'.redis c ∨ ∃ p, (w'.procs p).pending = some c := by
  cases h with
  | time _ _ _ procs _ => exact Or.inr (by rwa [procs])
  | read p u s before _ _ _ _ _ procs =>
    obtain ⟨d, hd⟩ := before
    exact Or.inr (pending_persists procs (by rw [hd]; rfl) hpend)
  | recorded p c' s before _ _ _ redis _ procs =>
    obtain ⟨q, hq⟩ := hpend
    by_cases hqp : q = p
    · subst hqp
      cases before.symm.trans hq
      rw [redis]
      exact Or.inl (recordIssuedJTI_recorded (hw.named c hc) (hw.bounded c hc))
    · exact Or.inr ⟨q, by rw [procs, update_of_ne hqp, hq]⟩
  | move _ _ _ _ _ procs settled => exact Or.inr (pending_persists procs settled hpend)
  | validated _ _ _ _ _ _ _ _ procs settled =>
    exact Or.inr (pending_persists procs settled hpend)
  | signed _ _ _ _ settled _ _ _ _ _ _ _ procs =>
    exact Or.inr (pending_persists procs settled hpend)
  | _ => exact Or.inr (pending_persists ‹_› (by rw [‹w.procs _ = _›]; rfl) hpend)

theorem Effect.tracked (h : Effect env w a w') (hw : Inv w) :
    ∀ c ∈ w'.issued,
      Dead w'.redis w'.now c ∨ Recorded w'.redis c ∨ ∃ p, (w'.procs p).pending = some c := by
  intro c hc
  by_cases hold : c ∈ w.issued
  · rcases hw.tracked c hold with hdead | hrec | hpend
    · exact Or.inl (h.dead hw hold hdead)
    · exact (h.recorded_or_dead hw hold hrec).imp_right Or.inl
    · exact Or.inr (h.pending hw hold hpend)
  · -- A new token is the one just signed.
    right; right
    cases h with
    | signed p c' old _ _ _ _ _ _ _ _ issued procs =>
      rw [issued, mem_append, mem_singleton] at hc
      rcases hc with hc | rfl
      · exact absurd hc hold
      · exact ⟨p, by rw [procs, update_self]; rfl⟩
    | _ => exact absurd (‹w'.issued = w.issued› ▸ hc) hold

theorem passes_update {p : Nat} {P : String → List String → Prop}
    (hprocs : w'.procs = update w.procs p s)
    (hrest : ∀ q u jtis, (w.procs q).pass = some (u, jtis) → P u jtis)
    (hs : ∀ u jtis, s.pass = some (u, jtis) → P u jtis) :
    ∀ q u jtis, (w'.procs q).pass = some (u, jtis) → P u jtis := by
  rw [hprocs]
  exact (Function.forall_update_iff w.procs
    fun _ s => ∀ u jtis, s.pass = some (u, jtis) → P u jtis).mpr ⟨hs, fun q _ => hrest q⟩

theorem Effect.passes_kept (h : Effect env w a w') (hw : Inv w) (hx : Exclusive w) :
    ∀ q u jtis, (w.procs q).pass = some (u, jtis) →
      ∀ c ∈ w'.issued, c.subject = u → Dead w'.redis w'.now c ∨ c.id ∈ jtis := by
  intro q u jtis hq c hc hsub
  rcases h.issued_cases hc with hc | ⟨p, hissuing, _⟩
  · exact (hw.passes q u jtis hq c hc hsub).imp_left (h.dead hw hc)
  · exact absurd (hsub ▸ hq) (hx p q c.subject jtis hissuing)

theorem Effect.passes (h : Effect env w a w') (hw : Inv w) (hx : Exclusive w) (hx' : Exclusive w') :
    ∀ p u jtis, (w'.procs p).pass = some (u, jtis) →
      ∀ c ∈ w'.issued, c.subject = u → Dead w'.redis w'.now c ∨ c.id ∈ jtis := by
  have hkept := h.passes_kept hw hx
  have htracked := h.tracked hw
  cases h with
  | time _ _ _ procs _ =>
    rw [procs]
    exact hkept
  | cleared p u d before _ _ _ procs =>
    refine passes_update procs hkept ?_
    rintro u' jtis ⟨⟩
    exact hkept p u [] (by rw [before]; rfl)
  | wrote p u j jtis d before time redis issued procs =>
    refine passes_update procs hkept ?_
    rintro u' jtis' ⟨⟩ c hc hsub
    rcases hkept p u (j :: jtis) (by rw [before]; rfl) c hc hsub with hdead | hmem
    · exact Or.inl hdead
    · rcases mem_cons.mp hmem with hj | hmem
      · left
        rw [redis, time, ← hj]
        exact dead_store_revoked (hw.bounded c (issued ▸ hc))
      · exact Or.inr hmem
  | read p u s before after _ time redis issued procs =>
    -- At the read no token of the user is on its way into the set.
    refine passes_update procs hkept ?_
    intro u' jtis hpass c hc hsub
    cases after.symm.trans hpass
    subst hsub
    rcases htracked c hc with hdead | hrec | ⟨q, hq⟩
    · exact Or.inl hdead
    · rw [redis, time]
      rw [redis] at hrec
      exact hrec.dead_or_mem w.now
    · have hissuing : (w'.procs q).issuing = some c.subject := by
        cases hproc : w'.procs q <;> rw [hproc] at hq <;> cases hq
        rfl
      exact absurd (by rw [procs, update_self, after]) (hx' q p _ _ hissuing)
  | move _ _ _ _ _ procs _ pass => exact passes_update procs hkept (by simp [pass])
  | recorded _ _ _ _ after _ _ _ _ procs => exact passes_update procs hkept (by simp [after.2.1])
  | _ => exact passes_update ‹_› hkept (by simp [Proc.pass])

theorem Effect.inv (h : Effect env w a w') (hw : Inv w) (hx : Exclusive w)
    (hx' : Exclusive w') (hforge : Unforged env w a) : Inv w' where
  unique := h.unique hw
  named := h.named hw
  bounded := h.bounded hw
  held := h.held hw hforge
  tracked := h.tracked hw
  passes := h.passes hw hx hx'

end Preservation

section Status

variable {env : Env} {w : World} {a : Action} {u : String}

theorem setUserStatus_other {accounts : Accounts} {u' : String} {d : Bool}
    (h : Inactive u accounts) (hne : u' ≠ u ∨ d = true) :
    Inactive u (setUserStatus accounts u' d) := by
  intro a ha hid
  rcases Table.mem_modify_iff.mp ha with ⟨ha', _⟩ | ⟨b, _, hb, rfl⟩
  · exact h a ha' hid
  · rcases hne with hne | rfl
    · exact absurd (hb.symm.trans hid) hne
    · rfl

theorem Effect.accountsEffect {w' : World} (h : Effect env w a w') :
    AccountsEffect a w.accounts w'.accounts := by
  cases h with
  | move _ _ _ _ _ _ _ _ _ _ accounts => exact accounts
  | _ => exact Or.inl (‹w'.accounts = w.accounts› ▸ .refl _)

theorem step_inactive (h : Inactive u w.accounts)
    (hnot : ∀ p t, a ≠ .setUserDisabled p t u false) : Inactive u (step env w a).accounts := by
  rcases (step_effect env w a).accountsEffect with hsame | ⟨p, t, u', d, rfl, heq⟩
  · exact h.mono hsame
  · rw [heq]
    apply setUserStatus_other h
    cases d with
    | true => exact Or.inr rfl
    | false => exact Or.inl fun hu => hnot p t (hu ▸ rfl)

theorem step_disables {p : Nat} {t : String} (hidle : w.procs p = .idle)
    (hmarked : (step env w (.setUserDisabled p t u true)).procs p = .marked u true) :
    Inactive u (step env w (.setUserDisabled p t u true)).accounts := by
  simp only [step, hidle] at hmarked ⊢
  unfold setUserDisabled at hmarked ⊢
  split at hmarked
  · cases hidle.symm.trans hmarked
  · split at hmarked
    · next hmay =>
        rw [if_pos hmay]
        exact setUserStatus_inactive w.accounts u
    · cases hidle.symm.trans hmarked

end Status

structure Closed (u : String) (w : World) : Prop where
  dead : ∀ c ∈ w.issued, c.subject = u → Dead w.redis w.now c
  inactive : Inactive u w.accounts
  quiet : ∀ p, (w.procs p).issuing ≠ some u

section Closed

variable {env : Env} {w w' : World} {a : Action} {u : String}

theorem Closed.quiet_update (h : Closed u w) {p : Nat} {s : Proc}
    (hprocs : w'.procs = update w.procs p s) (hs : s.issuing ≠ some u) :
    ∀ q, (w'.procs q).issuing ≠ some u := by
  rw [hprocs]
  exact (Function.forall_update_iff w.procs fun _ s => s.issuing ≠ some u).mpr
    ⟨hs, fun q _ => h.quiet q⟩

theorem Effect.quiet (h : Effect env w a w') (hclosed : Closed u w)
    (hforge : Unforged env w a) : ∀ p, (w'.procs p).issuing ≠ some u := by
  cases h with
  | time _ _ _ procs _ =>
    rw [procs]
    exact hclosed.quiet
  | move p s _ _ _ procs _ _ _ issuing =>
    refine hclosed.quiet_update procs fun hs => ?_
    rcases issuing u hs with hbefore | ⟨user, huser, hid, hactive⟩
    · exact hclosed.quiet p hbefore
    · cases (hclosed.inactive user huser hid).symm.trans hactive
  | validated p tok c action accepted _ _ _ procs =>
    subst action
    refine hclosed.quiet_update procs fun hs => ?_
    have hc : c ∈ w.issued := hforge c accepted.signed accepted.access
    exact (hclosed.dead c hc (Option.some.inj hs)).not_accepted accepted
  | signed p c old issuing _ _ _ _ _ _ _ _ procs =>
    exact hclosed.quiet_update procs fun hs => hclosed.quiet p (issuing.trans hs)
  | recorded _ _ _ _ after _ _ _ _ procs =>
    exact hclosed.quiet_update procs (by simp [after.2.2])
  | read _ _ _ _ _ quiet _ _ _ procs => exact hclosed.quiet_update procs (by simp [quiet.2.2])
  | _ => exact hclosed.quiet_update ‹_› (by simp [Proc.issuing])

theorem step_closed (hw : Inv w) (hclosed : Closed u w) (hforge : Unforged env w a)
    (hnot : ∀ p t, a ≠ .setUserDisabled p t u false) : Closed u (step env w a) where
  dead := by
    intro c hc hsub
    have heff := step_effect env w a
    rcases heff.issued_cases hc with hc | ⟨p, hissuing, _⟩
    · exact heff.dead hw hc (hclosed.dead c hc hsub)
    · exact absurd (hsub ▸ hissuing) (hclosed.quiet p)
  inactive := step_inactive hclosed.inactive hnot
  quiet := (step_effect env w a).quiet hclosed hforge

theorem closed_of_revoked {p : Nat} {d : Bool} (hw : Inv w) (hx : Exclusive w)
    (hinactive : Inactive u w.accounts) (hp : w.procs p = .revoked u d) : Closed u w where
  dead := by
    intro c hc hsub
    rcases hw.passes p u [] (by rw [hp]; rfl) c hc hsub with hdead | hmem
    · exact hdead
    · cases hmem
  inactive := hinactive
  quiet := fun q hq => hx q p u [] hq (by rw [hp]; rfl)

theorem Closed.not_issues (hclosed : Closed u w) {c : Claims} (hsub : c.subject = u) :
    (step env w a).issued ≠ w.issued ++ [c] := by
  intro hnew
  rcases (step_effect env w a).issued with heq | ⟨p, c', hissuing, _, _, _, heq⟩
  · rw [heq] at hnew
    simp at hnew
  · rw [heq] at hnew
    have hcc : c' = c := by simpa using hnew
    subst hcc
    exact hclosed.quiet p (hsub ▸ hissuing)

end Closed

def start (accounts : Accounts) (assignments : List RoleAssignment) (now : Int) : World :=
  ⟨accounts, assignments, Store.empty, now, [], fun _ => .idle⟩

def Orderly (env : Env) (w : World) (a : Action) : Prop :=
  Unforged env w a ∧ Exclusive w

theorem start_inv (accounts : Accounts) (assignments : List RoleAssignment) (now : Int) :
    Inv (start accounts assignments now) := by
  refine ⟨?_, ?_, ?_, ?_, ?_, ?_⟩ <;> simp [start, Proc.claims, Proc.pass]

def OutAfter (env : Env) (u : String) (deadline : Int) (w : World) (later : List Action) : Prop :=
  ∀ soon rest, later = soon ++ rest →
    let w' := run (step env) w soon
    (∀ c ∈ w'.issued, c.subject = u →
      ∀ tok, validateToken env.verified w'.redis w'.now tok = .ok c → w'.now ≤ deadline) ∧
    ∀ a rest', rest = a :: rest' →
      ∀ c, c.subject = u → (step env w' a).issued = w'.issued ++ [c] → w'.now ≤ deadline

def EndsSessions (env : Env) (w : World) (acts : List Action) : Prop :=
  ∀ before p t u mid later,
    acts = before ++ .setUserDisabled p t u true :: (mid ++ .finish p :: later) →
      let w₀ := run (step env) w before
      let w₁ := step env w₀ (.setUserDisabled p t u true)
      let w₂ := run (step env) w₁ mid
      w₀.procs p = .idle → w₁.procs p = .marked u true → w₂.procs p = .revoked u true →
        (∀ q t', .setUserDisabled q t' u false ∉ mid ++ later) →
          OutAfter env u (w₂.now + tokenTTL) (step env w₂ (.finish p)) later

section Histories

variable {env : Env} {w : World} {u : String} {acts : List Action}

-- The last state of a run need not be exclusive, so the invariant is only kept where it is.
theorem step_inv {a : Action} (hw : Exclusive w → Inv w) (hG : Orderly env w a)
    (hx : Exclusive (step env w a)) : Inv (step env w a) :=
  (step_effect env w a).inv (hw hG.2) hG.2 hx hG.1

theorem run_inv (hw : Exclusive w → Inv w) (hG : Guarded (step env) (Orderly env) w acts) :
    Exclusive (run (step env) w acts) → Inv (run (step env) w acts) :=
  run_invariant (I := fun w => Exclusive w → Inv w) (fun _ _ hw hG => step_inv hw hG) hw hG

theorem run_inactive (h : Inactive u w.accounts)
    (hnot : ∀ q t, .setUserDisabled q t u false ∉ acts) :
    Inactive u (run (step env) w acts).accounts := by
  have hguard : Guarded (step env) (fun _ a => ∀ q t, a ≠ .setUserDisabled q t u false) w acts :=
    guarded_of_forall fun a ha q t heq => hnot q t (heq ▸ ha)
  exact run_invariant (I := fun w : World => Inactive u w.accounts)
    (fun _ _ hw hG => step_inactive hw hG) h hguard

theorem run_closed (hw : Exclusive w → Inv w) (hclosed : Closed u w)
    (hG : Guarded (step env) (Orderly env) w acts)
    (hnot : ∀ q t, .setUserDisabled q t u false ∉ acts) : Closed u (run (step env) w acts) := by
  have hguard : Guarded (step env) (fun _ a => ∀ q t, a ≠ .setUserDisabled q t u false) w acts :=
    guarded_of_forall fun a ha q t heq => hnot q t (heq ▸ ha)
  have hboth := run_invariant (I := fun w => (Exclusive w → Inv w) ∧ Closed u w)
    (fun _ _ hw hG => ⟨step_inv hw.1 hG.1,
      step_closed (hw.1 hG.1.2) hw.2 hG.1.1 hG.2⟩) ⟨hw, hclosed⟩ (hG.and hguard)
  exact hboth.2

theorem outAfter_of_closed (hw : Exclusive w → Inv w) (hclosed : Closed u w) (deadline : Int)
    (hG : Guarded (step env) (Orderly env) w acts)
    (hnot : ∀ q t, .setUserDisabled q t u false ∉ acts) : OutAfter env u deadline w acts := by
  rintro soon rest rfl
  have hend : Closed u (run (step env) w soon) :=
    run_closed hw hclosed (guarded_append.mp hG).1
      fun q t hmem => hnot q t (mem_append_left _ hmem)
  constructor
  · intro c hc hsub tok hvalid
    exact absurd (validateToken_ok_iff.mp hvalid) (hend.dead c hc hsub).not_accepted
  · intro a rest' _ c hsub hnew
    exact absurd hnew (hend.not_issues hsub)

end Histories

/-- **A disabled user is out** when no token is issued across the revocation. -/
theorem disabled_user_out (env : Env) (accounts : Accounts)
    (assignments : List RoleAssignment) (now : Int) (acts : List Action)
    (hG : Guarded (step env) (Orderly env) (start accounts assignments now) acts) :
    EndsSessions env (start accounts assignments now) acts := by
  rintro before p t u mid later rfl w₀ w₁ w₂ hidle hmarked hrevoked hnot
  obtain ⟨hGbefore, hGdisable, hGrest⟩ := guarded_append.mp hG
  obtain ⟨hGmid, hGfinish, hGlater⟩ := guarded_append.mp hGrest
  have h₀ : Exclusive w₀ → Inv w₀ := run_inv (fun _ => start_inv _ _ _) hGbefore
  have h₂ : Inv w₂ := run_inv (step_inv h₀ hGdisable) hGmid hGfinish.2
  have hinactive : Inactive u w₂.accounts :=
    run_inactive (step_disables hidle hmarked)
      fun q t' hmem => hnot q t' (mem_append_left _ hmem)
  have hclosed : Closed u w₂ := closed_of_revoked h₂ hGfinish.2 hinactive hrevoked
  exact outAfter_of_closed (step_inv (fun _ => h₂) hGfinish)
    (step_closed h₂ hclosed hGfinish.1 (by simp)) _ hGlater
    fun q t' hmem => hnot q t' (mem_append_right _ hmem)

section Sequential

variable {env : Env} {w w' : World} {a : Action} {p : Nat}

theorem Effect.procs_of_ne (h : Effect env w a w') {q : Nat} (hq : a.proc ≠ some q) :
    w'.procs q = w.procs q := by
  have hother : ∀ {p : Nat} {s : Proc}, a.proc = some p →
      w'.procs = update w.procs p s → w'.procs q = w.procs q := by
    intro p s hproc hprocs
    rw [hprocs, update_of_ne]
    rintro rfl
    exact hq hproc
  cases h with
  | time _ _ _ procs _ => rw [procs]
  | _ => exact hother ‹_› ‹_›

def Solo (p : Nat) (w : World) : Prop := ∀ q ≠ p, w.procs q = .idle

theorem step_solo (h : Solo p w) (ha : ∀ q ≠ p, a.proc ≠ some q) : Solo p (step env w a) := by
  intro q hq
  rw [(step_effect env w a).procs_of_ne (ha q hq)]
  exact h q hq

theorem Solo.exclusive (h : Solo p w) : Exclusive w := by
  intro q q' u jtis hissuing hpass
  have hq : q = p := of_not_not fun hne => by
    rw [h q hne] at hissuing
    cases hissuing
  have hq' : q' = p := of_not_not fun hne => by
    rw [h q' hne] at hpass
    cases hpass
  subst hq hq'
  cases hproc : w.procs q' <;> rw [hproc] at hissuing hpass <;> cases hissuing <;> cases hpass

theorem guarded_of_sequential {acts : List Action} (hsolo : Solo p w)
    (hacts : ∀ a ∈ acts, ∀ q ≠ p, a.proc ≠ some q)
    (hforge : Guarded (step env) (Unforged env) w acts) :
    Guarded (step env) (Orderly env) w acts := by
  induction acts generalizing w with
  | nil => trivial
  | cons a acts ih =>
    have hstep : Solo p (step env w a) := step_solo hsolo (hacts a (by simp))
    exact ⟨⟨hforge.1, hsolo.exclusive⟩, ih hstep (fun b hb => hacts b (by simp [hb])) hforge.2⟩

end Sequential

def ann : Account where
  id := "u1"
  tenantID := "t"
  username := "ann"
  email := "ann@a.b"
  kind := "human"
  isGlobalAdmin := false
  passwordHash := "pw"
  status := .active
  isActive := true
  failedLogins := 0
  lockedUntil := none
  mfaEnabled := false

def firstClaims : Claims := passwordToken 0 ann [] "j1" "s1"

def secondClaims : Claims := refreshedClaims 0 "j2" firstClaims

def thirdClaims : Claims := refreshedClaims 240000000000 "j3" secondClaims

def plainEnv : Env where
  argon2 password hash := some (password == hash)
  requireMFA _ := false
  validatePassword _ := true
  verified tok :=
    if tok = [1] then some firstClaims
    else if tok = [2] then some secondClaims
    else if tok = [3] then some thirdClaims
    else none

def annAlone : World := start ⟨[ann], by decide⟩ [] 0

def loginOfAnn (p : Nat) : List Action :=
  [.loginRead p "t" "ann" "pw", .loginVerify p, .loginIssue p "j1" "s1", .record p]

def loginThenDisable : List Action :=
  loginOfAnn 0 ++ [.setUserDisabled 0 "t" "u1" true, .readSet 0, .writeRevoked 0, .clearSet 0,
    .finish 0, .refreshValidate 0 [1]]

theorem login_then_disable_out :
    Guarded (step plainEnv) (Orderly plainEnv) annAlone loginThenDisable ∧
      EndsSessions plainEnv annAlone loginThenDisable := by
  have hG : Guarded (step plainEnv) (Orderly plainEnv) annAlone loginThenDisable := by
    have hsolo : Solo 0 annAlone := fun _ _ => rfl
    apply guarded_of_sequential hsolo
    · intro a ha q hq
      simp only [loginThenDisable, loginOfAnn, mem_append, mem_cons,
        not_mem_nil, or_false] at ha
      rcases ha with (rfl | rfl | rfl | rfl) | rfl | rfl | rfl | rfl | rfl | rfl <;>
        simpa [Action.proc] using hq.symm
    · simp only [loginThenDisable, loginOfAnn, cons_append, nil_append, Guarded,
        Unforged, true_and, and_true]
      rintro c ⟨⟩ _
      decide +kernel
  exact ⟨hG, disabled_user_out _ _ _ _ _ hG⟩

def refreshAcrossDisable : List Action :=
  (loginOfAnn 0 ++ [.refreshValidate 1 [1]]) ++
    .setUserDisabled 2 "t" "u1" true :: ([.readSet 2, .writeRevoked 2, .clearSet 2] ++
      .finish 2 :: [.refreshIssue 1 "j2", .record 1, .revokeOld 1, .tick 240000000000,
        .refreshValidate 3 [2], .refreshIssue 3 "j3", .record 3, .revokeOld 3,
        .tick 120000000000])

theorem disabled_user_refreshes :
    ¬ ∀ (env : Env) (accounts : Accounts) (assignments : List RoleAssignment) (now : Int)
      (acts : List Action),
      Guarded (step env) (Unforged env) (start accounts assignments now) acts →
        EndsSessions env (start accounts assignments now) acts := by
  intro h
  have hG : Guarded (step plainEnv) (Unforged plainEnv) annAlone refreshAcrossDisable := by
    simp only [refreshAcrossDisable, loginOfAnn, cons_append, nil_append, Guarded,
      Unforged, true_and, and_true]
    constructor
    · rintro c ⟨⟩ _
      decide +kernel
    · rintro c ⟨⟩ _
      decide +kernel
  have hout := h plainEnv ⟨[ann], by decide⟩ [] 0 refreshAcrossDisable hG
    (loginOfAnn 0 ++ [.refreshValidate 1 [1]]) 2 "t" "u1"
    [.readSet 2, .writeRevoked 2, .clearSet 2] _ rfl (by decide +kernel)
    (by decide +kernel) (by decide +kernel) (by simp) _ [] (append_nil _).symm
  have hlate := hout.1 thirdClaims (by decide +kernel) rfl [3] (by decide +kernel)
  revert hlate
  decide +kernel

end OciJanus.Auth.DisableUser
