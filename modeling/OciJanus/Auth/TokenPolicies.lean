import OciJanus.Verified.KeyedTable

/-!
# Changes of the token policy and their audit events

`Put` emits an event unless two snapshots are equal, which hold the limits as pointers.
-/

namespace OciJanus.Auth.TokenPolicies

open Verified.KeyedTable

structure Row where
  tenantID : String
  maxTTLDays : Option Int := none
  rotationIntervalDays : Option Int := none
  idleRevokeDays : Option Int := none
  requireMFA : Bool := false
  updatedAt : Int := 0
  updatedByUserID : Option String := none

structure Pointer where
  addr : Nat
  val : Int

structure PolicySnapshot where
  (maxTTLDays rotationIntervalDays idleRevokeDays : Option Pointer)

structure TokenPolicy where
  tenantID : String
  (maxTTLDays rotationIntervalDays idleRevokeDays : Option Pointer)
  requireMFA : Bool
  updatedAt : Int
  updatedByUserID : Option String

structure AuditEvent where
  (tenantID action actorID resource : String)
  (before after : PolicySnapshot)

structure World where
  policies : Table Row String Row.tenantID
  fresh : Nat
  now : Int
  events : List AuditEvent

structure PutTokenPolicyInput where
  (tenantID actorID : String)
  maxTTLDays : Option Int := none
  rotationIntervalDays : Option Int := none
  idleRevokeDays : Option Int := none
  requireMFA : Option Bool := none

def uuidNil : String := "00000000-0000-0000-0000-000000000000"

def tokenPolicyMinDays : Int := 1

def tokenPolicyMaxDays : Int := 3650

def tokenPolicyMinIdleRevokeDays : Int := 7

def routingTokenPolicyChanged : String := "auth.token_policy.changed"

section
variable (w : World)

def stored (tenantID : String) : Row := (w.policies.get tenantID).getD { tenantID := tenantID }

def getOrDefault (tenantID : String) : TokenPolicy × World :=
  let r := stored w tenantID
  (⟨r.tenantID, r.maxTTLDays.map (Pointer.mk w.fresh),
      r.rotationIntervalDays.map (Pointer.mk (w.fresh + 1)),
      r.idleRevokeDays.map (Pointer.mk (w.fresh + 2)), r.requireMFA, r.updatedAt,
      r.updatedByUserID⟩,
    { w with fresh := w.fresh + 3 })

def Row.coalesce (r old : Row) : Row :=
  { r with
    tenantID := old.tenantID
    maxTTLDays := r.maxTTLDays.or old.maxTTLDays
    rotationIntervalDays := r.rotationIntervalDays.or old.rotationIntervalDays
    idleRevokeDays := r.idleRevokeDays.or old.idleRevokeDays }

def World.write (r : Row) : World :=
  { w with policies := w.policies.upsert r r.coalesce fun _ => rfl }

def upsert (r : Row) : TokenPolicy × World := getOrDefault (w.write r) r.tenantID

def snapshot (p : TokenPolicy) : PolicySnapshot :=
  ⟨p.maxTTLDays, p.rotationIntervalDays, p.idleRevokeDays⟩

def PolicySnapshot.same (a b : PolicySnapshot) : Bool :=
  a.maxTTLDays.map (·.addr) == b.maxTTLDays.map (·.addr) &&
    a.rotationIntervalDays.map (·.addr) == b.rotationIntervalDays.map (·.addr) &&
    a.idleRevokeDays.map (·.addr) == b.idleRevokeDays.map (·.addr)

def emitPolicyChanged (tenantID actorID : String) (before after : TokenPolicy) : World :=
  if (snapshot before).same (snapshot after) then w
  else
    { w with
      events := w.events ++ [⟨tenantID, routingTokenPolicyChanged, actorID, tenantID,
        snapshot before, snapshot after⟩] }

def validateTokenPolicyField (name : String) (v : Option Int) (minVal : Int) :
    Except String Unit :=
  match v with
  | none => .ok ()
  | some v =>
    if v < minVal then .error s!"{name} must be >= {minVal} (got {v})"
    else if tokenPolicyMaxDays < v then .error s!"{name} must be <= {tokenPolicyMaxDays} (got {v})"
    else .ok ()

def validate (inp : PutTokenPolicyInput) : Except String Unit := do
  if inp.tenantID = uuidNil then .error "tenant_id is required"
  if inp.actorID = uuidNil then .error "actor_id is required"
  validateTokenPolicyField "max_ttl_days" inp.maxTTLDays tokenPolicyMinDays
  validateTokenPolicyField "rotation_interval_days" inp.rotationIntervalDays tokenPolicyMinDays
  validateTokenPolicyField "idle_revoke_days" inp.idleRevokeDays tokenPolicyMinIdleRevokeDays

def PutTokenPolicyInput.row (inp : PutTokenPolicyInput) (now : Int) : Row :=
  ⟨inp.tenantID, inp.maxTTLDays, inp.rotationIntervalDays, inp.idleRevokeDays,
    inp.requireMFA.getD false, now, some inp.actorID⟩

def put (inp : PutTokenPolicyInput) : Except String TokenPolicy × World :=
  match validate inp with
  | .error e => (.error e, w)
  | .ok () =>
    let before := getOrDefault w inp.tenantID
    let after := upsert before.2 (inp.row w.now)
    (.ok after.1, emitPolicyChanged after.2 inp.tenantID inp.actorID before.1 after.1)

end

def Row.limits (r : Row) : Option Int × Option Int × Option Int :=
  (r.maxTTLDays, r.rotationIntervalDays, r.idleRevokeDays)

theorem Row.coalesce_tenantID (r old : Row) : (r.coalesce old).tenantID = old.tenantID := rfl

theorem stored_write (w : World) (r : Row) :
    stored (w.write r) r.tenantID = r.coalesce (stored w r.tenantID) := by
  show ((w.policies.upsert r r.coalesce r.coalesce_tenantID).get r.tenantID).getD _ = _
  rw [Table.get_upsert, if_pos rfl, stored]
  cases w.policies.get r.tenantID <;> simp [Row.coalesce]

theorem same_iff {w v : World} (t : String) (hfresh : w.fresh + 3 ≤ v.fresh) :
    (snapshot (getOrDefault w t).1).same (snapshot (getOrDefault v t).1) = true ↔
      (stored w t).limits = (none, none, none) ∧ (stored v t).limits = (none, none, none) := by
  have hcol : ∀ (x y : Option Int) (a b : Nat), a < b →
      ((x.map (Pointer.mk a)).map (·.addr) = (y.map (Pointer.mk b)).map (·.addr) ↔
        x = none ∧ y = none) := by
    intro x y a b hab
    cases x <;> cases y <;> simp
    omega
  simp only [PolicySnapshot.same, snapshot, getOrDefault, Row.limits, Bool.and_eq_true, beq_iff_eq,
    Prod.mk.injEq]
  rw [hcol _ _ _ _ (by omega), hcol _ _ _ _ (by omega), hcol _ _ _ _ (by omega)]
  tauto

theorem stored_emit {w : World} {t actor t' : String} {before after : TokenPolicy} :
    stored (emitPolicyChanged w t actor before after) t' = stored w t' := by
  unfold emitPolicyChanged
  split_ifs <;> rfl

theorem put_events {inp : PutTokenPolicyInput} {p : TokenPolicy} {w w' : World}
    (h : put w inp = (.ok p, w')) :
    stored w' inp.tenantID = (inp.row w.now).coalesce (stored w inp.tenantID) ∧
      ∃ e : AuditEvent, e.action = routingTokenPolicyChanged ∧ e.tenantID = inp.tenantID ∧
        w'.events = w.events ++
          if (stored w' inp.tenantID).limits = (none, none, none) then [] else [e] := by
  unfold put at h
  split at h
  · cases h
  · cases h
    generalize hwrite : (getOrDefault w inp.tenantID).2.write (inp.row w.now) = written
    have hupsert : upsert (getOrDefault w inp.tenantID).2 (inp.row w.now) =
        getOrDefault written inp.tenantID := by
      rw [← hwrite]
      rfl
    have hstored : stored written inp.tenantID =
        (inp.row w.now).coalesce (stored w inp.tenantID) := by
      rw [← hwrite]
      exact stored_write _ _
    have hevents : written.events = w.events := by rw [← hwrite]; rfl
    have hsame := same_iff (w := w) (v := written) inp.tenantID
      (by rw [← hwrite]; exact Nat.le_refl _)
    have hkeep : (stored written inp.tenantID).limits = (none, none, none) →
        (stored w inp.tenantID).limits = (none, none, none) := by
      rw [hstored]
      simp only [Row.limits, Row.coalesce, Prod.mk.injEq, Option.or_eq_none_iff]
      exact fun h => ⟨h.1.2, h.2.1.2, h.2.2.2⟩
    have hread : stored (getOrDefault written inp.tenantID).2 inp.tenantID =
        stored written inp.tenantID := rfl
    rw [hupsert, stored_emit, hread]
    refine ⟨hstored, ⟨inp.tenantID, routingTokenPolicyChanged, inp.actorID, inp.tenantID,
      snapshot (getOrDefault w inp.tenantID).1, snapshot (getOrDefault written inp.tenantID).1⟩,
      rfl, rfl, ?_⟩
    unfold emitPolicyChanged
    by_cases hnone : (stored written inp.tenantID).limits = (none, none, none)
    · rw [if_pos (hsame.mpr ⟨hkeep hnone, hnone⟩), if_pos hnone, List.append_nil]
      exact hevents
    · rw [if_neg fun h => hnone (hsame.mp h).2, if_neg hnone, ← hevents]
      rfl

namespace PutTokenPolicyInput

variable (inp : PutTokenPolicyInput) (old : Row)

/-- Neither the stored policy nor the input has a limit. -/
def Limitless : Prop :=
  (inp.maxTTLDays, inp.rotationIntervalDays, inp.idleRevokeDays) = (none, none, none) ∧
    old.limits = (none, none, none)
  deriving Decidable

/-- A given limit is not the stored one. -/
def MovesLimit : Prop :=
  inp.maxTTLDays.any (some · ≠ old.maxTTLDays) ∨
    inp.rotationIntervalDays.any (some · ≠ old.rotationIntervalDays) ∨
      inp.idleRevokeDays.any (some · ≠ old.idleRevokeDays)
  deriving Decidable

/-- A toggle that is not given counts as off. -/
def TogglesMFA : Prop := inp.requireMFA.getD false ≠ old.requireMFA
  deriving Decidable

end PutTokenPolicyInput

theorem coalesce_limitless_iff {inp : PutTokenPolicyInput} {old : Row} (now : Int) :
    ((inp.row now).coalesce old).limits = (none, none, none) ↔ inp.Limitless old := by
  simp only [Row.limits, Row.coalesce, PutTokenPolicyInput.row, PutTokenPolicyInput.Limitless,
    Prod.mk.injEq, Option.or_eq_none_iff]
  tauto

theorem coalesce_same_iff {inp : PutTokenPolicyInput} {old : Row} (now : Int) :
    (((inp.row now).coalesce old).limits = old.limits ∧
      ((inp.row now).coalesce old).requireMFA = old.requireMFA) ↔
      ¬ (inp.MovesLimit old ∨ inp.TogglesMFA old) := by
  have hcol : ∀ x y : Option Int, x.or y = y ↔ ¬ x.any (some · ≠ y) = true := by
    intro x y
    cases x <;> simp
  simp only [Row.limits, Row.coalesce, PutTokenPolicyInput.row, PutTokenPolicyInput.MovesLimit,
    PutTokenPolicyInput.TogglesMFA, Prod.mk.injEq, hcol]
  tauto

/-- **When changes are audited exactly**: a policy with a limit, stored or given, emits at every
call, so the call has to change something; a policy without one never emits. -/
theorem put_emits_iff_changed (w w' : World) (inp : PutTokenPolicyInput) (p : TokenPolicy)
    (h : put w inp = (.ok p, w')) :
    (∃ e : AuditEvent, e.action = routingTokenPolicyChanged ∧ e.tenantID = inp.tenantID ∧
      w'.events = w.events ++
        if (stored w' inp.tenantID).limits = (stored w inp.tenantID).limits ∧
          (stored w' inp.tenantID).requireMFA = (stored w inp.tenantID).requireMFA
        then [] else [e]) ↔
      if inp.Limitless (stored w inp.tenantID) then ¬ inp.TogglesMFA (stored w inp.tenantID)
      else inp.MovesLimit (stored w inp.tenantID) ∨ inp.TogglesMFA (stored w inp.tenantID) := by
  obtain ⟨hstored, e, haction, htenant, hevents⟩ := put_events h
  rw [hevents, hstored]
  simp only [coalesce_limitless_iff, coalesce_same_iff, List.append_cancel_left_eq]
  by_cases hnone : inp.Limitless (stored w inp.tenantID)
  · have hmoves : ¬ inp.MovesLimit (stored w inp.tenantID) := by
      obtain ⟨hinp, -⟩ := hnone
      simp only [Prod.mk.injEq] at hinp
      simp [PutTokenPolicyInput.MovesLimit, hinp]
    by_cases hmfa : inp.TogglesMFA (stored w inp.tenantID)
    · simp [hnone, hmfa]
    · simpa [hnone, hmoves, hmfa] using ⟨e, haction, htenant⟩
  · by_cases hch : inp.MovesLimit (stored w inp.tenantID) ∨ inp.TogglesMFA (stored w inp.tenantID)
    · simpa [hnone, hch] using ⟨haction, htenant⟩
    · simp [hnone, hch]

def noPolicies : World := ⟨.empty, 0, 0, []⟩

def capped : World := ⟨.single { tenantID := "t", maxTTLDays := some 90 }, 0, 0, []⟩

theorem first_limit_audited :
    ∃ e : AuditEvent, e.action = routingTokenPolicyChanged ∧ e.tenantID = "t" ∧
      (put noPolicies ⟨"t", "u", some 90, none, none, none⟩).2.events = [e] :=
  (put_emits_iff_changed noPolicies _ ⟨"t", "u", some 90, none, none, none⟩ _ rfl).mpr
    (by decide)

theorem toggle_unaudited_and_repeat_audited :
    ((put noPolicies ⟨"t", "u", none, none, none, some true⟩).2.events.length = 0 ∧
      (stored (put noPolicies ⟨"t", "u", none, none, none, some true⟩).2 "t").requireMFA ≠
        (stored noPolicies "t").requireMFA) ∧
    (put capped ⟨"t", "u", some 90, none, none, some false⟩).2.events.length = 1 ∧
      (stored (put capped ⟨"t", "u", some 90, none, none, some false⟩).2 "t").limits =
        (stored capped "t").limits ∧
      (stored (put capped ⟨"t", "u", some 90, none, none, some false⟩).2 "t").requireMFA =
        (stored capped "t").requireMFA := by
  decide

end OciJanus.Auth.TokenPolicies
