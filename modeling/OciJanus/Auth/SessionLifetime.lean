import OciJanus.Auth.Token
import OciJanus.Verified.KeyedTable
import OciJanus.Verified.Run

/-!
# Sessions

A refresh carries the session's id over without reading it; revoking it sets the gate
`revoke:sid:` for as long as it has left.
-/

namespace OciJanus.Auth.SessionLifetime

open Verified Sha256 Run ExpiringStore KeyedTable Auth.Token List

structure Session where
  (sid userID tenantID : String)
  expiresAt : Int
  revokedAt : Option Int

abbrev Sessions := Table Session String (fun s => s.sid)

def sessionMaxAge : Int := 30 * 24 * 60 * minute

structure World where
  sessions : Sessions
  redis : Redis
  now : Int
  issued : List Claims

structure LoginInfo where
  (userID tenantID : String)
  roles : List String
  isGlobalAdmin : Bool
  kind : String
  amr : List String
  ip : String

def sessionToken (now : Int) (l : LoginInfo) (jti sid : String) : Claims :=
  issueToken now jti l.userID l.tenantID [] l.roles l.isGlobalAdmin l.kind l.amr sid

def newSession (now : Int) (l : LoginInfo) (sid : String) : Session :=
  ⟨sid, l.userID, l.tenantID, timestamptz (now + sessionMaxAge), none⟩

section Calls

variable (w : World)

def issueSessionToken (validIP : String → Bool) (l : LoginInfo) (jti sid : String) : Option World :=
  if sid = "" ∨ !validIP l.ip then none
  else
    match w.sessions.insert? (newSession w.now l sid) with
    | none => none
    | some sessions =>
      some
        { w with
          sessions := sessions
          redis := recordIssuedJTI w.redis w.now l.userID jti
          issued := w.issued ++ [sessionToken w.now l jti sid] }

def owned (now : Int) (userID : String) (s : Session) : Bool :=
  s.userID = userID ∧ now < s.expiresAt

def markRevoked (now : Int) (s : Session) : Session :=
  { s with revokedAt := s.revokedAt.or (some now) }

theorem markRevoked_sid (now : Int) (s : Session) : (markRevoked now s).sid = s.sid := rfl

def revokeOwned (userID sid : String) : Option Session :=
  (w.sessions.get sid).filter (owned w.now userID)

def revokeSession (userID sid : String) : Option World :=
  match revokeOwned w userID sid with
  | none => none
  | some s =>
    some
      { w with
        sessions := w.sessions.modify sid (markRevoked w.now) (markRevoked_sid w.now)
        redis := setSessionRevokeGate w.redis w.now s.sid s.expiresAt }

def revokeOthers (userID keepSID : String) : List Session :=
  w.sessions.rows.filter fun s => owned w.now userID s ∧ s.sid ≠ keepSID

def markOther (now : Int) (userID keepSID : String) (s : Session) : Session :=
  if owned now userID s ∧ s.sid ≠ keepSID then markRevoked now s else s

theorem markOther_sid (now : Int) (userID keepSID : String) (s : Session) :
    (markOther now userID keepSID s).sid = s.sid := by
  unfold markOther
  split <;> rfl

def setGates (r : Redis) (now : Int) (rows : List Session) : Redis :=
  rows.foldl (fun r s => setSessionRevokeGate r now s.sid s.expiresAt) r

def revokeOtherSessions (userID keepSID : String) : World :=
  { w with
    sessions := w.sessions.mapRows (markOther w.now userID keepSID)
      (markOther_sid w.now userID keepSID)
    redis := setGates w.redis w.now (revokeOthers w userID keepSID) }

def refresh (verified : Bytes → Option Claims) (tok : Bytes) (jti : String) : World :=
  match refreshToken verified w.redis w.now jti tok with
  | .ok p => { w with redis := p.2, issued := w.issued ++ [p.1] }
  | .error _ => w

end Calls

inductive Action where
  | tick (d : Nat)
  | login (l : LoginInfo) (jti sid : String)
  | refreshToken (tok : Bytes) (jti : String)
  | revokeSession (userID sid : String)
  | revokeOtherSessions (userID keepSID : String)

def step (verified : Bytes → Option Claims) (validIP : String → Bool) (w : World) : Action → World
  | .tick d => { w with now := w.now + d }
  | .login l jti sid => (issueSessionToken w validIP l jti sid).getD w
  | .refreshToken tok jti => refresh w verified tok jti
  | .revokeSession userID sid => (revokeSession w userID sid).getD w
  | .revokeOtherSessions userID keepSID => revokeOtherSessions w userID keepSID

def revokedBy (w : World) : Action → List String
  | .revokeSession userID sid => ((revokeOwned w userID sid).map (·.sid)).toList
  | .revokeOtherSessions userID keepSID => (revokeOthers w userID keepSID).map (·.sid)
  | _ => []

def expiry (w : World) (sid : String) : Option Int := (w.sessions.get sid).map (·.expiresAt)

inductive Effect (verified : Bytes → Option Claims) (w : World) (a : Action) (w' : World) : Prop
  | quiet (time : w.now ≤ w'.now) (redis : w'.redis = w.redis) (issued : w'.issued = w.issued)
      (expiries : ∀ s, expiry w' s = expiry w s) (revokes : revokedBy w a = [])
  | opened (sid : String) (c : Claims) (named : sid ≠ "") (fresh : expiry w sid = none)
      (carries : c.sid = sid) (expires : ExpiresWithin tokenTTL w.now c) (time : w'.now = w.now)
      (redis : w'.redis = recordIssuedJTI w.redis w.now c.subject c.id)
      (issued : w'.issued = w.issued ++ [c])
      (expiries : ∀ s, expiry w' s =
        if sid = s then some (timestamptz (w.now + sessionMaxAge)) else expiry w s)
      (revokes : revokedBy w a = [])
  | refreshed (tok : Bytes) (jti : String) (c : Claims) (action : a = .refreshToken tok jti)
      (accepted : Accepted verified w.redis w.now tok c) (time : w'.now = w.now)
      (redis : w'.redis = revokeToken (recordIssuedJTI w.redis w.now c.subject jti) w.now c)
      (issued : w'.issued = w.issued ++ [refreshedClaims w.now jti c])
      (expiries : ∀ s, expiry w' s = expiry w s)
  | gated (rows : List Session)
      (live : ∀ s ∈ rows, w.now < s.expiresAt ∧ expiry w s.sid = some s.expiresAt)
      (time : w'.now = w.now) (redis : w'.redis = setGates w.redis w.now rows)
      (issued : w'.issued = w.issued) (expiries : ∀ s, expiry w' s = expiry w s)
      (revokes : revokedBy w a = rows.map (·.sid))

section Effects

variable {verified : Bytes → Option Claims} {validIP : String → Bool} {w w' : World}
  {a : Action}

variable {jti sid : String}

theorem issueSessionToken_some {l : LoginInfo}
    (h : issueSessionToken w validIP l jti sid = some w') :
    (sid ≠ "" ∧ expiry w sid = none) ∧
      (w'.now = w.now ∧ w'.redis = recordIssuedJTI w.redis w.now l.userID jti ∧
        w'.issued = w.issued ++ [sessionToken w.now l jti sid]) ∧
      ∀ s, expiry w' s =
        if sid = s then some (timestamptz (w.now + sessionMaxAge)) else expiry w s := by
  unfold issueSessionToken at h
  split_ifs at h with hbad
  cases hinsert : w.sessions.insert? (newSession w.now l sid) with
  | none => simp [hinsert] at h
  | some sessions =>
    simp only [hinsert, Option.some.injEq] at h
    subst h
    have hfresh : w.sessions.get sid = none := (Table.insert?_eq_some hinsert).1
    refine ⟨⟨fun h => hbad (Or.inl h), ?_⟩, ⟨rfl, rfl, rfl⟩, fun s => ?_⟩
    · unfold expiry
      rw [hfresh]
      rfl
    · show (sessions.get s).map _ = _
      rw [Table.get_insert? hinsert]
      by_cases hs : sid = s
      · subst hs
        simp [newSession]
      · have hne : ¬ (newSession w.now l sid).sid = s := hs
        rw [if_neg hne, if_neg hs]
        rfl

theorem login_effect {l : LoginInfo} :
    Effect verified w (.login l jti sid) ((issueSessionToken w validIP l jti sid).getD w) := by
  cases h : issueSessionToken w validIP l jti sid with
  | none => exact .quiet le_rfl rfl rfl (fun _ => rfl) rfl
  | some w' =>
    obtain ⟨⟨hnamed, hfresh⟩, ⟨htime, hredis, hissued⟩, hexp⟩ := issueSessionToken_some h
    exact .opened sid (sessionToken w.now l jti sid) hnamed hfresh rfl (issueToken_expires ..)
      htime hredis hissued hexp rfl

theorem refresh_effect {tok : Bytes} :
    Effect verified w (.refreshToken tok jti) (refresh w verified tok jti) := by
  unfold refresh
  cases hr : refreshToken verified w.redis w.now jti tok with
  | error e => exact .quiet le_rfl rfl rfl (fun _ => rfl) rfl
  | ok p =>
    obtain ⟨c, hacc, hclaims, hredis⟩ := refreshToken_ok hr
    exact .refreshed tok jti c rfl hacc rfl hredis (congrArg (w.issued ++ [·]) hclaims) fun _ => rfl

theorem expiry_of_mem {s : Session} (h : s ∈ w.sessions.rows) :
    expiry w s.sid = some s.expiresAt := by
  unfold expiry
  rw [w.sessions.get_key h]
  rfl

theorem revokeSession_effect {userID : String} :
    Effect verified w (.revokeSession userID sid) ((revokeSession w userID sid).getD w) := by
  unfold revokeSession
  cases hown : revokeOwned w userID sid with
  | none => exact .quiet le_rfl rfl rfl (fun _ => rfl) (by simp [revokedBy, hown])
  | some s =>
    obtain ⟨hget, howned⟩ := Option.filter_eq_some_iff.mp hown
    refine .gated [s] ?_ rfl rfl rfl ?_ (by simp [revokedBy, hown])
    · intro s' hs'
      cases mem_singleton.mp hs'
      exact ⟨(of_decide_eq_true howned).2, expiry_of_mem (Table.mem_of_get hget)⟩
    · intro s'
      show ((w.sessions.modify sid (markRevoked w.now) (markRevoked_sid w.now)).get s').map _ = _
      by_cases hs' : s' = sid
      · subst hs'
        rw [Table.get_modify_self, Option.map_map]
        rfl
      · rw [Table.get_modify_ne hs']
        rfl

theorem revokeOtherSessions_effect {userID keepSID : String} :
    Effect verified w (.revokeOtherSessions userID keepSID)
      (revokeOtherSessions w userID keepSID) := by
  refine .gated (revokeOthers w userID keepSID) ?_ rfl rfl rfl ?_ rfl
  · intro s hs
    obtain ⟨hmem, hother⟩ := mem_filter.mp hs
    have howned := (of_decide_eq_true hother).1
    exact ⟨(of_decide_eq_true howned).2, expiry_of_mem hmem⟩
  · intro s
    show ((w.sessions.mapRows (markOther w.now userID keepSID)
      (markOther_sid w.now userID keepSID)).get s).map _ = _
    rw [Table.get_mapRows, Option.map_map]
    unfold expiry
    congr 1
    funext r
    show (markOther w.now userID keepSID r).expiresAt = r.expiresAt
    unfold markOther
    split <;> rfl

theorem step_effect (verified : Bytes → Option Claims) (validIP : String → Bool) (w : World)
    (a : Action) : Effect verified w a (step verified validIP w a) := by
  cases a with
  | tick d =>
    exact .quiet (Int.le_add_of_nonneg_right (Int.natCast_nonneg d)) rfl rfl (fun _ => rfl) rfl
  | login l jti sid => exact login_effect
  | refreshToken tok jti => exact refresh_effect
  | revokeSession userID sid => exact revokeSession_effect
  | revokeOtherSessions userID keepSID => exact revokeOtherSessions_effect

end Effects

theorem setGates_stored {k : RedisKey} (hk : ∀ s, k ≠ .revokeSid s) (now : Int)
    (rows : List Session) (r : Redis) : stored (setGates r now rows) k = stored r k := by
  induction rows generalizing r with
  | nil => rfl
  | cons s rows ih =>
    exact (ih _).trans (setSessionRevokeGate_stored hk s.sid s.expiresAt)

theorem setGates_gate {now : Int} {rows : List Session} (hlive : ∀ s ∈ rows, now < s.expiresAt)
    (r : Redis) (sid : String) :
    (stored (setGates r now rows) (.revokeSid sid) = stored r (.revokeSid sid) ∧
        sid ∉ rows.map (·.sid)) ∨
      ∃ s ∈ rows, s.sid = sid ∧
        stored (setGates r now rows) (.revokeSid sid) = some ⟨.one, s.expiresAt⟩ := by
  induction rows generalizing r with
  | nil => exact Or.inl ⟨rfl, by simp⟩
  | cons s rows ih =>
    have hstep : setGates r now (s :: rows) =
        setGates (setSessionRevokeGate r now s.sid s.expiresAt) now rows := rfl
    rw [hstep]
    rcases ih (fun s' hs' => hlive s' (mem_cons_of_mem s hs'))
      (setSessionRevokeGate r now s.sid s.expiresAt) with ⟨hsame, hnot⟩ | ⟨s', hs', hsid, hval⟩
    · by_cases hs : s.sid = sid
      · subst hs
        refine Or.inr ⟨s, mem_cons_self, rfl, hsame.trans ?_⟩
        have hpos : 0 < s.expiresAt - now := by
          have := hlive s mem_cons_self
          omega
        unfold setSessionRevokeGate
        rw [if_neg (by omega), stored_store_self]
        congr 2
        omega
      · refine Or.inl ⟨hsame.trans ?_, ?_⟩
        · unfold setSessionRevokeGate
          split_ifs
          · rfl
          · exact stored_store_ne (fun h => hs (RedisKey.revokeSid.inj h).symm)
        · rw [map_cons, mem_cons, not_or]
          exact ⟨fun h => hs h.symm, hnot⟩
    · exact Or.inr ⟨s', mem_cons_of_mem s hs', hsid, hval⟩

def Unforged (verified : Bytes → Option Claims) (w : World) : Action → Prop
  | .refreshToken tok _ => ∀ c, verified tok = some c → c.typ = "" → c ∈ w.issued
  | _ => True

def Timely (verified : Bytes → Option Claims) (w : World) (a : Action) : Prop :=
  (∀ tok jti c d, a = .refreshToken tok jti → verified tok = some c →
      expiry w c.sid = some d → w.now ≤ d) ∧
    ∀ sid ∈ revokedBy w a, ∀ d, expiry w sid = some d → ∀ c ∈ w.issued, c.sid = sid →
      Dead w.redis w.now c ∨ ∃ e, c.expiresAt = some e ∧ e ≤ d

structure Bounded (w : World) : Prop where
  unnamed : expiry w "" = none
  ends : ∀ c ∈ w.issued, ∃ e d, c.expiresAt = some e ∧ expiry w c.sid = some d ∧ e ≤ d + tokenTTL

structure Shut (sid : String) (w : World) : Prop where
  named : sid ≠ ""
  gate : ∃ v d, expiry w sid = some d ∧ stored w.redis (.revokeSid sid) = some ⟨v, d⟩ ∧
    ∀ c ∈ w.issued, c.sid = sid → Dead w.redis w.now c ∨ ∃ e, c.expiresAt = some e ∧ e ≤ d

theorem le_sessionEnd (now : Int) : now ≤ timestamptz (now + sessionMaxAge) := by
  unfold timestamptz Verified.Rfc3339.truncateMicro sessionMaxAge minute second
  omega

section Invariants

variable {verified : Bytes → Option Claims} {validIP : String → Bool} {w w' : World}
  {a : Action} {sid : String}

theorem Effect.expiry_eq {d : Int} (h : Effect verified w a w') (hd : expiry w sid = some d) :
    expiry w' sid = some d := by
  cases h with
  | quiet _ _ _ hexp _ => rw [hexp, hd]
  | refreshed _ _ _ _ _ _ _ _ hexp => rw [hexp, hd]
  | gated _ _ _ _ _ hexp _ => rw [hexp, hd]
  | opened s _ _ hfresh _ _ _ _ _ hexp =>
    have hne : s ≠ sid := by
      intro hs
      rw [hs, hd] at hfresh
      cases hfresh
    rw [hexp, if_neg hne, hd]

theorem Bounded.keep (hb : Bounded w) (h : Effect verified w a w')
    (hnone : expiry w' "" = none) (hi : w'.issued = w.issued) : Bounded w' := by
  refine ⟨hnone, fun c hc => ?_⟩
  rw [hi] at hc
  obtain ⟨e, d, he, hd, hle⟩ := hb.ends c hc
  exact ⟨e, d, he, h.expiry_eq hd, hle⟩

variable {c : Claims}

theorem Bounded.add {d : Int} (hb : Bounded w) (h : Effect verified w a w')
    (hnone : expiry w' "" = none) (hi : w'.issued = w.issued ++ [c])
    (hc : ExpiresWithin tokenTTL w.now c) (hd : expiry w' c.sid = some d) (hle : w.now ≤ d) :
    Bounded w' := by
  refine ⟨hnone, fun c' hc' => ?_⟩
  rw [hi] at hc'
  rcases mem_append.mp hc' with hold | hnew
  · obtain ⟨e, d', he, hd', hle'⟩ := hb.ends c' hold
    exact ⟨e, d', he, h.expiry_eq hd', hle'⟩
  · cases mem_singleton.mp hnew
    obtain ⟨e, he, hle'⟩ := hc
    exact ⟨e, d, he, hd, by omega⟩

theorem Bounded.effect (hb : Bounded w) (heff : Effect verified w a w')
    (hu : Unforged verified w a) (ht : Timely verified w a) : Bounded w' := by
  have h := heff
  cases h with
  | quiet _ _ hi hexp _ => exact hb.keep heff (by rw [hexp, hb.unnamed]) hi
  | gated _ _ _ _ hi hexp _ => exact hb.keep heff (by rw [hexp, hb.unnamed]) hi
  | opened s c hs _ hsid hc _ _ hi hexp _ =>
    refine hb.add heff ?_ hi hc (d := timestamptz (w.now + sessionMaxAge)) ?_ (le_sessionEnd w.now)
    · rw [hexp, if_neg hs, hb.unnamed]
    · rw [hexp, hsid, if_pos rfl]
  | refreshed tok jti c ha hacc _ _ hi hexp =>
    subst ha
    obtain ⟨_, d, _, hd, _⟩ := hb.ends c (hu c hacc.signed hacc.access)
    refine hb.add heff ?_ hi (issueToken_expires ..) (d := d) ?_
      (ht.1 tok jti c d rfl hacc.signed hd)
    · rw [hexp, hb.unnamed]
    · rw [hexp]
      exact hd

theorem Effect.dead (h : Effect verified w a w') (hc : Dead w.redis w.now c) :
    Dead w'.redis w'.now c := by
  cases h with
  | quiet htime hr _ _ _ => exact hc.of_stored_eq htime (by rw [hr])
  | opened _ _ _ _ _ _ htime hr _ _ _ =>
    refine hc.of_stored_eq htime.ge ?_
    rw [hr, recordIssuedJTI_stored (by simp)]
  | gated rows _ htime hr _ _ _ =>
    refine hc.of_stored_eq htime.ge ?_
    rw [hr, setGates_stored (by simp)]
  | refreshed tok jti c' _ hacc htime hr _ _ =>
    by_cases hid : c.id = c'.id
    · exact hc.of_lookup_none htime.ge (by rw [hid]; exact hacc.jti)
    · refine hc.of_stored_eq htime.ge ?_
      rw [hr, revokeToken_stored_ne (by simpa using hid), recordIssuedJTI_stored (by simp)]

theorem Shut.keep (hs : Shut sid w) (h : Effect verified w a w')
    (hgate : ∀ v d, expiry w sid = some d → stored w.redis (.revokeSid sid) = some ⟨v, d⟩ →
      ∃ v', stored w'.redis (.revokeSid sid) = some ⟨v', d⟩)
    (hi : ∀ c ∈ w'.issued, c.sid = sid → c ∈ w.issued) : Shut sid w' := by
  obtain ⟨v, d, hd, hv, htokens⟩ := hs.gate
  obtain ⟨v', hv'⟩ := hgate v d hd hv
  refine ⟨hs.named, v', d, h.expiry_eq hd, hv', fun c hc hsid => ?_⟩
  rcases htokens c (hi c hc hsid) hsid with hdead | hle
  · exact Or.inl (h.dead hdead)
  · exact Or.inr hle

theorem Shut.not_accepted {tok : Bytes} (hs : Shut sid w) (hc : c ∈ w.issued)
    (hsid : c.sid = sid) : ¬ Accepted verified w.redis w.now tok c := by
  intro hacc
  obtain ⟨v, d, _, hv, htokens⟩ := hs.gate
  rcases htokens c hc hsid with hdead | ⟨e, he, hle⟩
  · exact hdead.not_accepted hacc
  · have hlt := hacc.now_lt he
    have hgate : lookup w.redis w.now (.revokeSid c.sid) = some v :=
      lookup_eq_some_iff.mpr ⟨d, by rw [hsid, hv], by omega⟩
    rcases hacc.session with hempty | hnone
    · exact hs.named (hsid ▸ hempty)
    · rw [hgate] at hnone
      cases hnone

theorem Shut.effect (hs : Shut sid w) (heff : Effect verified w a w')
    (hu : Unforged verified w a) : Shut sid w' := by
  have h := heff
  cases h with
  | quiet _ hr hi _ _ =>
    exact hs.keep heff (fun v _ _ hv => ⟨v, by rw [hr, hv]⟩) fun c hc _ => hi ▸ hc
  | opened s c _ hfresh hcarries _ _ hr hi _ _ =>
    refine hs.keep heff (fun v _ _ hv => ⟨v, ?_⟩) fun c' hc' hsid => ?_
    · rw [hr, recordIssuedJTI_stored (by simp), hv]
    · -- the new session is another one: this one already has an end
      rw [hi] at hc'
      rcases mem_append.mp hc' with hold | hnew
      · exact hold
      · cases mem_singleton.mp hnew
        obtain ⟨_, d, hd, _⟩ := hs.gate
        rw [← hcarries, hsid, hd] at hfresh
        cases hfresh
  | refreshed tok jti c ha hacc _ hr hi _ =>
    subst ha
    refine hs.keep heff (fun v _ _ hv => ⟨v, ?_⟩) fun c' hc' hsid => ?_
    · rw [hr, revokeToken_stored (by simp), recordIssuedJTI_stored (by simp), hv]
    · rw [hi] at hc'
      rcases mem_append.mp hc' with hold | hnew
      · exact hold
      · cases mem_singleton.mp hnew
        exact absurd hacc (hs.not_accepted (hu c hacc.signed hacc.access) hsid)
  | gated rows hlive _ hr hi _ _ =>
    refine hs.keep heff (fun v d hd hv => ?_) fun c hc _ => hi ▸ hc
    rcases setGates_gate (fun s hs' => (hlive s hs').1) w.redis sid with
      ⟨hsame, _⟩ | ⟨s, hs', hsid, hval⟩
    · exact ⟨v, by rw [hr, hsame, hv]⟩
    · have hend := (hlive s hs').2
      rw [hsid, hd] at hend
      exact ⟨.one, by rw [hr, hval, Option.some.inj hend]⟩

theorem Shut.of_revoked (hb : Bounded w) (heff : Effect verified w a w')
    (ht : Timely verified w a) (hsid : sid ∈ revokedBy w a) : Shut sid w' := by
  have h := heff
  cases h with
  | quiet _ _ _ _ hno => rw [hno] at hsid; cases hsid
  | opened _ _ _ _ _ _ _ _ _ _ hno => rw [hno] at hsid; cases hsid
  | refreshed _ _ _ ha => subst ha; cases hsid
  | gated rows hlive _ hr hi _ hrows =>
    rcases setGates_gate (fun s hs' => (hlive s hs').1) w.redis sid with
      ⟨_, hnot⟩ | ⟨s, hs', rfl, hval⟩
    · rw [hrows] at hsid
      exact absurd hsid hnot
    · have hend := (hlive s hs').2
      refine ⟨?_, .one, s.expiresAt, heff.expiry_eq hend, by rw [hr, hval], fun c hc hcs => ?_⟩
      · intro hempty
        rw [hempty, hb.unnamed] at hend
        cases hend
      · rcases ht.2 s.sid hsid s.expiresAt hend c (hi ▸ hc) hcs with hdead | hle
        · exact Or.inl (heff.dead hdead)
        · exact Or.inr hle

end Invariants

def start (now : Int) : World := ⟨⟨[], nodup_nil⟩, Store.empty, now, []⟩

section Histories

variable (verified : Bytes → Option Claims) (validIP : String → Bool)

def RevokedEnd (w : World) (acts : List Action) : Prop :=
  ∀ before a later sid, acts = before ++ a :: later →
    sid ∈ revokedBy (run (step verified validIP) w before) a →
      let w' := run (step verified validIP) w acts
      ∀ c ∈ w'.issued, c.sid = sid → ∀ tok, validateToken verified w'.redis w'.now tok ≠ .ok c

def AgedEnd (w : World) (acts : List Action) : Prop :=
  ∀ before l jti sid later, acts = before ++ .login l jti sid :: later →
    let w₀ := run (step verified validIP) w before
    (issueSessionToken w₀ validIP l jti sid).isSome →
      let w' := run (step verified validIP) w acts
      ∀ c ∈ w'.issued, c.sid = sid → ∀ tok, validateToken verified w'.redis w'.now tok = .ok c →
        w'.now ≤ w₀.now + sessionMaxAge + tokenTTL

variable {verified validIP} {w : World} {acts : List Action}

theorem start_bounded (now : Int) : Bounded (start now) :=
  ⟨rfl, fun _ hc => absurd hc not_mem_nil⟩

theorem run_bounded (hb : Bounded w) (hG : Guarded (step verified validIP)
      (fun w a => Unforged verified w a ∧ Timely verified w a) w acts) :
    Bounded (run (step verified validIP) w acts) :=
  run_invariant (fun _ _ hb h => hb.effect (step_effect ..) h.1 h.2) hb hG

theorem run_shut {sid : String} (hs : Shut sid w) (hG : Guarded (step verified validIP)
      (fun w a => Unforged verified w a ∧ Timely verified w a) w acts) :
    Shut sid (run (step verified validIP) w acts) :=
  run_invariant (fun _ _ hs h => hs.effect (step_effect ..) h.1) hs hG

theorem run_expiry {sid : String} {d : Int} (hd : expiry w sid = some d) :
    expiry (run (step verified validIP) w acts) sid = some d :=
  run_invariant (G := fun _ _ => True) (I := fun w => expiry w sid = some d)
    (fun w a hd _ => (step_effect verified validIP w a).expiry_eq hd) hd
    (guarded_of_forall (P := fun _ => True) fun _ _ => trivial)

end Histories

def annLogin : LoginInfo := ⟨"u", "t", [], false, "human", ["pwd"], "10.0.0.1"⟩

def chainJTI (k : Nat) : String := String.ofList (List.replicate (k + 1) 'j')

def chainClaims (k : Nat) : Claims := sessionToken (4 * minute * k) annLogin (chainJTI k) "s"

def chainToken (k : Nat) : Bytes := List.replicate k 1

def chainVerified (tok : Bytes) : Option Claims :=
  if tok = chainToken tok.length then some (chainClaims tok.length) else none

def fourMinutes : Nat := 240000000000

theorem chainVerified_token (k : Nat) : chainVerified (chainToken k) = some (chainClaims k) := by
  simp [chainVerified, chainToken]

def chainActs : Nat → List Action
  | 0 => [.login annLogin (chainJTI 0) "s"]
  | k + 1 => chainActs k ++ [.tick fourMinutes, .refreshToken (chainToken k) (chainJTI (k + 1))]

def anyIP (_ : String) : Bool := true

/-- **Sessions end**, when nothing is refreshed past the session's end. -/
theorem sessions_end (verified : Bytes → Option Claims) (validIP : String → Bool) (now : Int)
    (acts : List Action) (hG : Guarded (step verified validIP)
      (fun w a => Unforged verified w a ∧ Timely verified w a) (start now) acts) :
    RevokedEnd verified validIP (start now) acts ∧ AgedEnd verified validIP (start now) acts := by
  constructor
  · rintro before a later sid rfl hsid w' c hc hcs tok hvalid
    obtain ⟨hbefore, ha, hlater⟩ := guarded_append.mp hG
    have hb := run_bounded (start_bounded now) hbefore
    have hshut := run_shut (.of_revoked hb (step_effect verified validIP _ a) ha.2 hsid) hlater
    have hw' : w' = run (step verified validIP)
        (step verified validIP (run (step verified validIP) (start now) before) a) later :=
      run_append ..
    rw [← hw'] at hshut
    exact hshut.not_accepted hc hcs (validateToken_ok_iff.mp hvalid)
  · rintro before l jti sid later rfl w₀ hlogin w' c hc hcs tok hvalid
    obtain ⟨w₁, hw₁⟩ := Option.isSome_iff_exists.mp hlogin
    have hstep : step verified validIP w₀ (.login l jti sid) = w₁ := by
      show (issueSessionToken w₀ validIP l jti sid).getD w₀ = w₁
      rw [hw₁]
      rfl
    have hexp : expiry w₁ sid = some (timestamptz (w₀.now + sessionMaxAge)) := by
      rw [(issueSessionToken_some hw₁).2.2, if_pos rfl]
    have hend : expiry w' sid = some (timestamptz (w₀.now + sessionMaxAge)) := by
      have hw' : w' = run (step verified validIP) (step verified validIP w₀ (.login l jti sid))
          later := run_append ..
      rw [hw', hstep]
      exact run_expiry hexp
    obtain ⟨e, d, he, hd, hle⟩ := (run_bounded (start_bounded now) hG).ends c hc
    have hlt := (validateToken_ok_iff.mp hvalid).now_lt he
    have hd' : d = timestamptz (w₀.now + sessionMaxAge) := by
      rw [hcs] at hd
      exact Option.some.inj (hd.symm.trans hend)
    have hend' := timestamptz_le (w₀.now + sessionMaxAge)
    omega

def refreshThenRevoke : List Action := chainActs 1 ++ [.revokeSession "u" "s"]

theorem revoked_client_out :
    RevokedEnd chainVerified anyIP (start 0) refreshThenRevoke ∧
      AgedEnd chainVerified anyIP (start 0) refreshThenRevoke := by
  refine sessions_end chainVerified anyIP 0 refreshThenRevoke ?_
  simp only [refreshThenRevoke, chainActs, cons_append, nil_append, Guarded, Unforged,
    Timely, revokedBy, not_mem_nil, true_and, and_true, reduceCtorEq, false_implies,
    implies_true]
  refine ⟨⟨?_, ?_⟩, ?_⟩
  · intro c hc _
    rw [chainVerified_token] at hc
    cases hc
    exact mem_cons_self
  · intro tok jti c d ha hc hd
    cases ha
    rw [chainVerified_token] at hc
    cases hc
    cases hd
    decide
  · intro sid hsid d hd c hc _
    cases mem_singleton.mp (show sid ∈ ["s"] from hsid)
    cases hd
    rcases mem_pair.mp (show c ∈ [chainClaims 0, chainClaims 1] from hc) with rfl | rfl
    · exact Or.inr ⟨_, rfl, by decide⟩
    · exact Or.inr ⟨_, rfl, by decide⟩

structure ChainAt (k : Nat) (w : World) : Prop where
  now : w.now = 4 * minute * k
  issued : chainClaims k ∈ w.issued
  sessions : w.sessions.rows = [newSession 0 annLogin "s"]
  jtis : ∀ j, k ≤ j → stored w.redis (.revoked (chainJTI j)) = none
  users : ∀ u, stored w.redis (.revokeUser u) = none
  gates : ∀ s, stored w.redis (.revokeSid s) = none

variable {k : Nat}

theorem chainJTI_injective {j : Nat} (h : chainJTI j = chainJTI k) : j = k := by
  have hlen := congrArg (fun s : String => s.toList.length) h
  simpa [chainJTI] using hlen

theorem refreshedClaims_chain (k : Nat) :
    refreshedClaims (4 * minute * ((k + 1 : Nat) : Int)) (chainJTI (k + 1)) (chainClaims k) =
      chainClaims (k + 1) := rfl

theorem chain_accepted {r : Redis} {now : Int} (hnow : now < 4 * minute * k + tokenTTL)
    (hjti : stored r (.revoked (chainJTI k)) = none) (huser : stored r (.revokeUser "u") = none)
    (hgate : ∀ e, stored r (.revokeSid "s") = some e → e.deadline ≤ now) :
    Accepted chainVerified r now (chainToken k) (chainClaims k) where
  signed := chainVerified_token k
  timely := by
    show (decide (now < newNumericDate (4 * minute * k + tokenTTL)) && true) = true
    unfold newNumericDate tokenTTL minute second at *
    rw [Bool.and_true, decide_eq_true_eq]
    omega
  access := rfl
  jti := lookup_eq_none fun e he => by
    rw [show (chainClaims k).id = chainJTI k from rfl, hjti] at he
    cases he
  user := lookup_eq_none fun e he => by
    rw [show (chainClaims k).subject = "u" from rfl, huser] at he
    cases he
  session := Or.inr (lookup_eq_none hgate)

theorem refresh_of_accepted {verified : Bytes → Option Claims} {w : World} {tok : Bytes}
    {c : Claims} (jti : String) (h : Accepted verified w.redis w.now tok c) :
    refresh w verified tok jti =
      { w with
        redis := revokeToken (recordIssuedJTI w.redis w.now c.subject jti) w.now c
        issued := w.issued ++ [refreshedClaims w.now jti c] } := by
  unfold refresh refreshToken
  rw [validateToken_ok_iff.mpr h]

theorem fourMinutes_eq : (fourMinutes : Int) = 4 * minute := rfl

theorem ChainAt.next {w : World} (h : ChainAt k w) :
    ChainAt (k + 1) (run (step chainVerified anyIP) w
      [.tick fourMinutes, .refreshToken (chainToken k) (chainJTI (k + 1))]) := by
  have hnow : w.now + fourMinutes = 4 * minute * ((k + 1 : Nat) : Int) := by
    rw [h.now, fourMinutes_eq, Int.natCast_succ, Int.mul_add, Int.mul_one]
  have hacc : Accepted chainVerified w.redis (w.now + fourMinutes) (chainToken k)
      (chainClaims k) := by
    refine chain_accepted ?_ (h.jtis k le_rfl) (h.users "u") fun e he => ?_
    · rw [h.now]
      exact Int.add_lt_add_left (by decide) _
    · rw [h.gates] at he
      cases he
  have hrun : run (step chainVerified anyIP) w
      [.tick fourMinutes, .refreshToken (chainToken k) (chainJTI (k + 1))] = _ :=
    refresh_of_accepted (w := { w with now := w.now + fourMinutes }) (chainJTI (k + 1)) hacc
  rw [hrun]
  refine ⟨hnow, ?_, h.sessions, fun j hj => ?_, fun u => ?_, fun s => ?_⟩
  · show chainClaims (k + 1) ∈ w.issued ++ [refreshedClaims (w.now + fourMinutes) _ _]
    rw [hnow, refreshedClaims_chain]
    exact mem_append_right _ mem_cons_self
  · have hne : RedisKey.revoked (chainJTI j) ≠ .revoked (chainClaims k).id := fun heq => by
      have := chainJTI_injective (RedisKey.revoked.inj heq)
      omega
    rw [revokeToken_stored_ne hne, recordIssuedJTI_stored (by simp)]
    exact h.jtis j (by omega)
  · rw [revokeToken_stored (by simp), recordIssuedJTI_stored (by simp)]
    exact h.users u
  · rw [revokeToken_stored (by simp), recordIssuedJTI_stored (by simp)]
    exact h.gates s

theorem chainAt_zero : ChainAt 0 (run (step chainVerified anyIP) (start 0) (chainActs 0)) := by
  refine ⟨rfl, mem_cons_self, rfl, fun j _ => ?_, fun u => ?_, fun s => ?_⟩
  · exact recordIssuedJTI_stored (by simp) "u" (chainJTI 0)
  · exact recordIssuedJTI_stored (by simp) "u" (chainJTI 0)
  · exact recordIssuedJTI_stored (by simp) "u" (chainJTI 0)

theorem chain_goes_on (k : Nat) :
    ChainAt k (run (step chainVerified anyIP) (start 0) (chainActs k)) ∧
      Guarded (step chainVerified anyIP) (Unforged chainVerified) (start 0) (chainActs k) := by
  induction k with
  | zero => exact ⟨chainAt_zero, trivial, trivial⟩
  | succ k ih =>
    obtain ⟨hat, hG⟩ := ih
    constructor
    · show ChainAt (k + 1) (run _ _ (chainActs k ++ _))
      rw [run_append]
      exact hat.next
    · refine guarded_append.mpr ⟨hG, trivial, ?_, trivial⟩
      intro c hc _
      rw [chainVerified_token] at hc
      cases hc
      exact hat.issued

theorem chainActs_login (k : Nat) :
    ∃ later, chainActs k = .login annLogin (chainJTI 0) "s" :: later := by
  induction k with
  | zero => exact ⟨[], rfl⟩
  | succ k ih =>
    obtain ⟨later, hlater⟩ := ih
    exact ⟨later ++ _, congrArg (· ++ _) hlater⟩

theorem chain_aged (h : AgedEnd chainVerified anyIP (start 0) (chainActs k)) :
    4 * minute * k ≤ sessionMaxAge + tokenTTL := by
  obtain ⟨later, hlater⟩ := chainActs_login k
  have hat := (chain_goes_on k).1
  have hend := h [] annLogin (chainJTI 0) "s" later hlater rfl (chainClaims k) hat.issued rfl
    (chainToken k) (validateToken_ok_iff.mpr ?_)
  · rw [hat.now] at hend
    simpa [start] using hend
  · refine chain_accepted ?_ (hat.jtis k le_rfl) (hat.users "u") fun e he => ?_
    · rw [hat.now]
      exact Int.lt_add_of_pos_right _ (by decide)
    · rw [hat.gates] at he
      cases he

theorem ChainAt.revokeOwned {w : World} (hat : ChainAt k w)
    (hlive : 4 * minute * k < sessionMaxAge) :
    revokeOwned w "u" "s" = some (newSession 0 annLogin "s") := by
  refine Option.filter_eq_some_iff.mpr ⟨?_, ?_⟩
  · unfold Table.get
    rw [hat.sessions]
    rfl
  · rw [hat.now]
    exact decide_eq_true ⟨rfl, hlive⟩

theorem ChainAt.gate_deadline {w : World} (hat : ChainAt k w)
    (hlive : 4 * minute * k < sessionMaxAge) :
    ∀ e, stored (setGates w.redis w.now [newSession 0 annLogin "s"]) (.revokeSid "s") = some e →
      e.deadline ≤ sessionMaxAge := by
  intro e he
  have hrows : ∀ s ∈ [newSession 0 annLogin "s"], w.now < s.expiresAt := by
    intro s hs
    cases mem_singleton.mp hs
    rw [hat.now]
    exact hlive
  rcases setGates_gate hrows w.redis "s" with ⟨hsame, _⟩ | ⟨s, hs, _, hval⟩
  · rw [hsame, hat.gates] at he
    cases he
  · rw [hval] at he
    cases he
    cases mem_singleton.mp hs
    exact le_rfl

theorem chain_revoked {d : Nat} (hlive : 4 * minute * k < sessionMaxAge)
    (hgone : sessionMaxAge ≤ 4 * minute * k + d) (hd : (d : Int) < tokenTTL) :
    ¬ RevokedEnd chainVerified anyIP (start 0) (chainActs k ++ [.revokeSession "u" "s", .tick d])
    := by
  intro h
  have hat := (chain_goes_on k).1
  generalize hw : run (step chainVerified anyIP) (start 0) (chainActs k) = w at hat
  have hown := hat.revokeOwned hlive
  have hrun : run (step chainVerified anyIP) (start 0)
      (chainActs k ++ [.revokeSession "u" "s", .tick d]) =
        { w with
          sessions := w.sessions.modify "s" (markRevoked w.now) (markRevoked_sid w.now)
          redis := setGates w.redis w.now [newSession 0 annLogin "s"]
          now := w.now + d } := by
    rw [run_append, hw]
    show step chainVerified anyIP ((revokeSession w "u" "s").getD w) (.tick d) = _
    unfold revokeSession
    rw [hown]
    rfl
  have hsid : "s" ∈ revokedBy w (.revokeSession "u" "s") := by
    simp [revokedBy, hown, newSession]
  have hno := h (chainActs k) (.revokeSession "u" "s") [.tick d] "s" rfl (hw ▸ hsid)
  rw [hrun] at hno
  refine hno (chainClaims k) hat.issued rfl (chainToken k) (validateToken_ok_iff.mpr ?_)
  refine chain_accepted ?_ ?_ ?_ fun e he => ?_
  · rw [hat.now]
    exact Int.add_lt_add_left hd _
  · exact (setGates_stored (by simp) ..).trans (hat.jtis k le_rfl)
  · exact (setGates_stored (by simp) ..).trans (hat.users "u")
  · rw [hat.now]
    exact (hat.gate_deadline hlive e he).trans hgone

theorem session_never_ends :
    (¬ ∀ verified validIP now acts,
        Guarded (step verified validIP) (Unforged verified) (start now) acts →
          AgedEnd verified validIP (start now) acts) ∧
      ¬ ∀ verified validIP now acts,
        Guarded (step verified validIP) (Unforged verified) (start now) acts →
          RevokedEnd verified validIP (start now) acts := by
  constructor
  · intro h
    have hall : ∀ k : Nat, 4 * minute * (k : Int) ≤ sessionMaxAge + tokenTTL := fun k =>
      chain_aged (h chainVerified anyIP 0 _ (chain_goes_on k).2)
    -- 10802 rounds of four minutes are eight minutes more than thirty days
    have hle := hall 10802
    revert hle
    decide
  · intro h
    have hG : ∀ k, Guarded (step chainVerified anyIP) (Unforged chainVerified) (start 0)
        (chainActs k ++ [.revokeSession "u" "s", .tick fourMinutes]) := fun k =>
      guarded_append.mpr ⟨(chain_goes_on k).2, trivial, trivial, trivial⟩
    have hall : ∀ k : Nat, 4 * minute * (k : Int) < sessionMaxAge →
        ¬ sessionMaxAge ≤ 4 * minute * k + fourMinutes := fun k hlive hgone =>
      chain_revoked hlive hgone (by decide) (h chainVerified anyIP 0 _ (hG k))
    exact hall 10799 (by decide) (by decide)

end OciJanus.Auth.SessionLifetime
