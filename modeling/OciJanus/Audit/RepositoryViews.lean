import OciJanus.Audit.EventConsumer

/-!
# The views of one repository

The history looks for `repo_id` beside the payload; the analytics look under it.
-/

namespace OciJanus.Audit.RepositoryViews

open Verified.Json Verified.Rfc3339 Audit.EventMapping List
open Audit.EventConsumer (Config stored sampleConfig sampleTenant)
open Audit.HashChain (UUID)

structure PushCompletedPayload where
  (repositoryName repoID tag manifestDigest pushedBy : String)
  sizeBytes : Int
  artifactType : String

structure PullImagePayload where
  (tenantID repositoryID repositoryName manifestDigest manifestID tag actorID : String)
  pulledAt : Time
  via : String

def optionalMember (key text : String) (ms : Members) : Members :=
  if text = "" then ms else .cons key (.str text) ms

def PushCompletedPayload.value (p : PushCompletedPayload) : Value :=
  .obj <| optionalMember "artifact_type" p.artifactType <|
    .cons "manifest_digest" (.str p.manifestDigest) <|
    .cons "pushed_by" (.str p.pushedBy) <|
    .cons "repo_id" (.str p.repoID) <|
    .cons "repository_name" (.str p.repositoryName) <|
    .cons "size_bytes" (.number (.ofInt p.sizeBytes)) <|
    .cons "tag" (.str p.tag) .nil

def PullImagePayload.value (p : PullImagePayload) : Value :=
  .obj <| optionalMember "actor_id" p.actorID <| .cons "manifest_digest" (.str p.manifestDigest) <|
    optionalMember "manifest_id" p.manifestID <|
    .cons "pulled_at" (.str (String.ofList (formatRFC3339Nano p.pulledAt))) <|
    .cons "repository_id" (.str p.repositoryID) <|
    .cons "repository_name" (.str p.repositoryName) <|
    optionalMember "tag" p.tag <|
    .cons "tenant_id" (.str p.tenantID) <|
    optionalMember "via" p.via .nil

inductive Payload where
  | push (p : PushCompletedPayload)
  | pull (p : PullImagePayload)

namespace Payload

def type : Payload → EventType
  | .push _ => .pushCompleted
  | .pull _ => .pullImage

def action : Payload → String
  | .push _ => "push.image"
  | .pull _ => "pull.image"

def value : Payload → Value
  | .push p => p.value
  | .pull p => p.value

def repoID : Payload → String
  | .push p => p.repoID
  | .pull p => p.repositoryID

def tag : Payload → String
  | .push p => p.tag
  | .pull p => p.tag

end Payload

structure Published where
  event : Event
  payload : Payload
  type_eq : event.type = payload.type
  raw_eq : event.raw = some payload.value

def record (cfg : Config) (now : Time) (ev : Event) : Option Entry := do
  let t ← cfg.parseUUID ev.tenantID
  let e ← mapEvent now t ev
  stored now e

def recorded (cfg : Config) (h : List (Time × Published)) : List (Published × Entry) :=
  h.filterMap fun x => (record cfg x.1 x.2.event).map fun e => (x.2, e)

def table (cfg : Config) (h : List (Time × Published)) : List Entry :=
  (recorded cfg h).map Prod.snd

def metaText (key : String) (e : Entry) : Option String :=
  e.metadata.bind (Value.memberText key)

def rawText (key : String) (e : Entry) : Option String :=
  (e.metadata.bind (Value.member "raw")).bind (Value.memberText key)

structure NewestFirst where
  order : List Entry → List Entry
  perm : ∀ l, (order l).Perm l
  sorted : ∀ l, (order l).Pairwise fun a b => b.occurredAt ≤ a.occurredAt

def historyLimit (limit : Int) : Nat := if limit ≤ 0 ∨ 100 < limit then 25 else limit.toNat

def getBuildHistory (o : NewestFirst) (rows : List Entry) (tenantID : UUID) (repoID tag : String)
    (limit : Int) : List Entry :=
  (o.order (rows.filter fun e =>
    e.tenantID = tenantID ∧ e.action = "push.image" ∧ metaText "repo_id" e = some repoID ∧
      (tag = "" ∨ metaText "tag" e = some tag))).take (historyLimit limit)

inductive AnalyticsError where
  | bucketSecs
  | rangeEnd
  | repoID
  | query

inductive AnalyticsScope where
  | tenantWide
  | repo (repoID : String)

def bucketMicros (bucketSecs : Int) : Int :=
  (Int.bmod (bucketSecs * 1000000000) 18446744073709551616).tdiv 1000

def dateBin (micros origin t : Int) : Int :=
  origin + (t - origin) / (micros * 1000) * (micros * 1000)

def countBuckets (micros origin : Int) (rows : List Entry) : List (Time × Nat) :=
  let bins := rows.map fun e => dateBin micros origin e.occurredAt
  (bins.eraseDups.mergeSort fun a b => a ≤ b).map fun b => (b, bins.count b)

def inWindow (rangeStart rangeEnd : Time) (e : Entry) : Bool :=
  rangeStart ≤ e.occurredAt ∧ e.occurredAt < rangeEnd

def AnalyticsScope.selects : AnalyticsScope → Entry → Bool
  | .tenantWide, _ => true
  | .repo repoID, e => rawText "repo_id" e = some repoID

def getAnalytics (rows : List Entry) (tenantID : UUID) (scope : AnalyticsScope) (action : String)
    (rangeStart rangeEnd : Time) (bucketSecs : Int) : Except AnalyticsError (List (Time × Nat)) :=
  if bucketSecs ≤ 0 then .error .bucketSecs
  else if rangeEnd < rangeStart then .error .rangeEnd
  else if (match scope with | .tenantWide => false | .repo repoID => repoID = "") then
    .error .repoID
  else if bucketMicros bucketSecs ≤ 0 then .error .query
  else
    .ok (countBuckets (bucketMicros bucketSecs) rangeStart (rows.filter fun e =>
      e.tenantID = tenantID ∧ e.action = action ∧ inWindow rangeStart rangeEnd e ∧ scope.selects e))

def pushesOf (cfg : Config) (h : List (Time × Published)) (tenantID : UUID)
    (repoID tag : String) : List Entry :=
  ((recorded cfg h).filter fun x =>
    x.2.tenantID = tenantID ∧ x.1.payload.action = "push.image" ∧ x.1.payload.repoID = repoID ∧
      (tag = "" ∨ x.1.payload.tag = tag)).map Prod.snd

def eventsOf (cfg : Config) (h : List (Time × Published)) (tenantID : UUID)
    (repoID action : String) (rangeStart rangeEnd : Time) : List Entry :=
  ((recorded cfg h).filter fun x =>
    x.2.tenantID = tenantID ∧ x.1.payload.action = action ∧ x.1.payload.repoID = repoID ∧
      inWindow rangeStart rangeEnd x.2).map Prod.snd

theorem get_optionalMember_ne {key name text : String} (h : key ≠ name) (ms : Members) :
    (optionalMember key text ms).get name = ms.get name := by
  unfold optionalMember
  split_ifs
  · rfl
  · simp [Members.get, h]

theorem push_repoID (p : PushCompletedPayload) : p.value.memberText "repo_id" = some p.repoID := by
  simp [Value.memberText, PushCompletedPayload.value, Value.member, get_optionalMember_ne,
    Members.get, Value.scalarText]

theorem pull_repoID (p : PullImagePayload) : p.value.memberText "repo_id" = none := by
  simp [Value.memberText, PullImagePayload.value, Value.member, get_optionalMember_ne, Members.get]

theorem stored_action {now : Time} {e row : Entry} (h : stored now e = some row) {v : Value}
    (hv : e.metadata = some v) : row.action = e.action ∧ row.metadata = some v := by
  unfold stored at h
  rw [Option.ite_none_left_eq_some, Option.some.injEq] at h
  rw [← h.2]
  exact ⟨rfl, by simp [hv]⟩

theorem mapEvent_published {now : Time} {t : UUID} {pub : Published} {e : Entry}
    (h : mapEvent now t pub.event = some e) :
    e.action = pub.payload.action ∧ e.metadata = some (.obj (.cons "event_id" (.str pub.event.id)
        (.cons "raw" pub.payload.value .nil))) := by
  obtain ⟨d, hd, rfl⟩ := Option.map_eq_some_iff.mp h
  have htype := pub.type_eq
  have hmeta : pub.event.metadata = some (.obj (.cons "event_id" (.str pub.event.id)
      (.cons "raw" pub.payload.value .nil))) := by
    unfold Event.metadata
    rw [pub.raw_eq]
    rfl
  cases hp : pub.payload with
  | push | pull =>
    rw [hp] at htype hmeta
    unfold describe at hd
    rw [htype] at hd ⊢
    cases hd
    exact ⟨rfl, hmeta⟩

variable {x : Published × Entry}

theorem row_of_recorded {cfg : Config} {h : List (Time × Published)} (hx : x ∈ recorded cfg h) :
    x.2.action = x.1.payload.action ∧
      x.2.metadata = some (.obj (.cons "event_id" (.str x.1.event.id)
        (.cons "raw" x.1.payload.value .nil))) := by
  obtain ⟨⟨now, pub⟩, _, hrec⟩ := mem_filterMap.mp hx
  obtain ⟨row, hrow, rfl⟩ := Option.map_eq_some_iff.mp hrec
  obtain ⟨t, _, hrow⟩ := Option.bind_eq_some_iff.mp hrow
  obtain ⟨e, he, hrow⟩ := Option.bind_eq_some_iff.mp hrow
  obtain ⟨haction, hmeta⟩ := mapEvent_published he
  obtain ⟨hrowAction, hrowMeta⟩ := stored_action hrow hmeta
  exact ⟨hrowAction.trans haction, hrowMeta⟩

theorem metaText_repoID {cfg : Config} {h : List (Time × Published)}
    (hx : x ∈ recorded cfg h) : metaText "repo_id" x.2 = none := by
  simp [metaText, (row_of_recorded hx).2, Value.memberText, Value.member, Members.get]

theorem rawText_repoID {cfg : Config} {h : List (Time × Published)} (hx : x ∈ recorded cfg h) :
    rawText "repo_id" x.2 = x.1.payload.value.memberText "repo_id" := by
  simp [rawText, (row_of_recorded hx).2, Value.member, Members.get]

theorem getBuildHistory_eq_nil (o : NewestFirst) (cfg : Config) (h : List (Time × Published))
    (tenantID : UUID) (repoID tag : String) (limit : Int) :
    getBuildHistory o (table cfg h) tenantID repoID tag limit = [] := by
  have hnone : ((table cfg h).filter fun e =>
      e.tenantID = tenantID ∧ e.action = "push.image" ∧ metaText "repo_id" e = some repoID ∧
        (tag = "" ∨ metaText "tag" e = some tag)) = [] := by
    apply filter_eq_nil_iff.mpr
    intro e he
    obtain ⟨x, hx, rfl⟩ := mem_map.mp he
    simp [metaText_repoID hx]
  unfold getBuildHistory
  rw [hnone, (o.perm []).eq_nil, take_nil]

theorem newest_eq_nil_iff (o : NewestFirst) (rows : List Entry) (limit : Int) :
    (o.order rows).take limit.toNat = [] ↔ limit ≤ 0 ∨ rows = [] := by
  rw [take_eq_nil_iff]
  constructor
  · rintro (hlimit | hrows)
    · exact Or.inl (by omega)
    · exact Or.inr ((hrows ▸ o.perm rows).nil_eq).symm
  · rintro (hlimit | rfl)
    · exact Or.inl (by omega)
    · exact Or.inr (o.perm []).eq_nil

theorem countBuckets_eq_nil_iff (micros origin : Int) (rows : List Entry) :
    countBuckets micros origin rows = [] ↔ rows = [] := by
  constructor
  · intro hnil
    cases rows with
    | nil => rfl
    | cons e rows =>
      have hlen := congrArg List.length hnil
      simp [countBuckets, eraseDups_cons] at hlen
  · rintro rfl
    simp [countBuckets]

def selected (rows : List Entry) (tenantID : UUID) (repoID action : String)
    (rangeStart rangeEnd : Time) : List Entry :=
  rows.filter fun e =>
    e.tenantID = tenantID ∧ e.action = action ∧ inWindow rangeStart rangeEnd e ∧
      (AnalyticsScope.repo repoID).selects e

section Selected

variable {cfg : Config} {h : List (Time × Published)} {tenantID : UUID} {repoID action : String}
  {rangeStart rangeEnd : Time}

theorem selected_eq_eventsOf (haction : action ≠ "pull.image") :
    selected (table cfg h) tenantID repoID action rangeStart rangeEnd =
      eventsOf cfg h tenantID repoID action rangeStart rangeEnd := by
  unfold selected eventsOf table
  rw [filter_map]
  congr 1
  apply filter_congr
  intro x hx
  have haction' := (row_of_recorded hx).1
  have hraw := rawText_repoID hx
  cases hp : x.1.payload with
  | push p =>
    rw [hp] at haction' hraw
    have hrepo : rawText "repo_id" x.2 = some p.repoID := hraw.trans (push_repoID p)
    simp only [Function.comp_apply, AnalyticsScope.selects, hrepo, haction', Option.some.injEq,
      decide_eq_true_eq, decide_eq_decide]
    constructor
    · rintro ⟨ht, ha, hwindow, hid⟩
      exact ⟨ht, ha, hid, hwindow⟩
    · rintro ⟨ht, ha, hid, hwindow⟩
      exact ⟨ht, ha, hwindow, hid⟩
  | pull p =>
    rw [hp] at haction'
    have hne : "pull.image" ≠ action := fun heq => haction heq.symm
    simp [haction', Payload.action, hne]

theorem selected_pull_eq_nil :
    selected (table cfg h) tenantID repoID "pull.image" rangeStart rangeEnd = [] := by
  apply filter_eq_nil_iff.mpr
  intro e he
  obtain ⟨x, hx, rfl⟩ := mem_map.mp he
  have haction := (row_of_recorded hx).1
  have hraw := rawText_repoID hx
  cases hp : x.1.payload with
  | push p =>
    rw [hp] at haction
    simp [haction, Payload.action]
  | pull p =>
    rw [hp] at hraw
    have hrepo : rawText "repo_id" x.2 = none := hraw.trans (pull_repoID p)
    simp [AnalyticsScope.selects, hrepo]

theorem getAnalytics_repo (rows : List Entry) (bucketSecs : Int) (counts : List (Time × Nat)) :
    getAnalytics rows tenantID (.repo repoID) action rangeStart rangeEnd bucketSecs = .ok counts ↔
      (0 < bucketSecs ∧ rangeStart ≤ rangeEnd ∧ repoID ≠ "" ∧ 0 < bucketMicros bucketSecs) ∧
        countBuckets (bucketMicros bucketSecs) rangeStart
          (selected rows tenantID repoID action rangeStart rangeEnd) = counts := by
  unfold getAnalytics selected
  split_ifs with hsecs hrange hrepo hmicros
  · simp [hsecs]
  · simp [hrange]
  · simp [decide_eq_true_eq.mp hrepo]
  · simp [hmicros]
  · have hrepo' : repoID ≠ "" := by simpa using hrepo
    simp [hrepo', not_le.mp hsecs, not_lt.mp hrange, not_le.mp hmicros]

end Selected

/-- **When the views of a repository are exact.** -/
theorem views_exact_iff (o : NewestFirst) (cfg : Config) (h : List (Time × Published))
    (tenantID : UUID) (repoID tag : String) (limit : Int) (action : String)
    (rangeStart rangeEnd : Time) (bucketSecs : Int) :
    (getBuildHistory o (table cfg h) tenantID repoID tag limit =
        (o.order (pushesOf cfg h tenantID repoID tag)).take limit.toNat ↔
      limit ≤ 0 ∨ pushesOf cfg h tenantID repoID tag = []) ∧
    (getAnalytics (table cfg h) tenantID (.repo repoID) action rangeStart rangeEnd bucketSecs =
        .ok (countBuckets (bucketMicros bucketSecs) rangeStart
          (eventsOf cfg h tenantID repoID action rangeStart rangeEnd)) ↔
      (0 < bucketSecs ∧ rangeStart ≤ rangeEnd ∧ repoID ≠ "" ∧ 0 < bucketMicros bucketSecs) ∧
        (action = "pull.image" →
          eventsOf cfg h tenantID repoID action rangeStart rangeEnd = [])) := by
  constructor
  · rw [getBuildHistory_eq_nil, eq_comm, newest_eq_nil_iff]
  · rw [getAnalytics_repo]
    apply and_congr_right
    intro _
    by_cases haction : action = "pull.image"
    · rw [haction, selected_pull_eq_nil, eq_comm]
      rw [(countBuckets_eq_nil_iff _ _ []).mpr rfl, countBuckets_eq_nil_iff]
      simp
    · rw [selected_eq_eventsOf haction]
      simp [haction]

theorem unmarshal_eq_of_canonical {raw : Verified.Sha256.Bytes} {v : Value}
    (h : (unmarshal raw).map writeCanonicalValue = some (writeCanonicalValue v)) :
    unmarshal raw = some v := by
  obtain ⟨w, hw, heq⟩ := Option.map_eq_some_iff.mp h
  rw [hw, writeCanonicalValue_injective heq]

def samplePushPayload : PushCompletedPayload := ⟨"o/r", "r-1", "v1", "sha256:a", "u", 1, ""⟩

def samplePullPayload : PullImagePayload := ⟨"t", "r-1", "o/r", "sha256:a", "", "v1", "u", 0, ""⟩

def samplePushEvent : Event :=
  ⟨"ev-1", .pushCompleted, "t", 1000,
    ["\x7b\"repository_name\":\"o/r\",", "\"repo_id\":\"r-1\",", "\"tag\":\"v1\",",
      "\"manifest_digest\":", "\"sha256:a\",", "\"pushed_by\":\"u\",",
      "\"size_bytes\":1\x7d"].flatMap Verified.Utf8.stringBytes⟩

def samplePullEvent : Event :=
  ⟨"ev-2", .pullImage, "t", 2000, ["\x7b\"tenant_id\":\"t\",", "\"repository_id\":\"r-1\",",
      "\"repository_name\":\"o/r\",", "\"manifest_digest\":", "\"sha256:a\",",
      "\"tag\":\"v1\",", "\"actor_id\":\"u\",", "\"pulled_at\":",
      "\"0001-01-01T00:00:00Z\"\x7d"].flatMap Verified.Utf8.stringBytes⟩

theorem samplePushEvent_raw : samplePushEvent.raw = some samplePushPayload.value := by
  unfold Event.raw
  rw [if_neg (by decide +kernel)]
  exact unmarshal_eq_of_canonical (by decide +kernel)

theorem samplePullEvent_raw : samplePullEvent.raw = some samplePullPayload.value := by
  unfold Event.raw
  rw [if_neg (by decide +kernel)]
  exact unmarshal_eq_of_canonical (by decide +kernel)

def sampleHistory : List (Time × Published) :=
  [(0, ⟨samplePushEvent, .push samplePushPayload, rfl, samplePushEvent_raw⟩),
    (0, ⟨samplePullEvent, .pull samplePullPayload, rfl, samplePullEvent_raw⟩)]

theorem recorded_events_missing :
    (∀ o : NewestFirst,
      getBuildHistory o (table sampleConfig sampleHistory) sampleTenant "r-1" "" 10 = [] ∧
      ((o.order (pushesOf sampleConfig sampleHistory sampleTenant "r-1" "")).take 10).length = 1) ∧
    getAnalytics (table sampleConfig sampleHistory) sampleTenant (.repo "r-1") "pull.image" 0 3000
      60 = .ok [] ∧
    (eventsOf sampleConfig sampleHistory sampleTenant "r-1" "pull.image" 0 3000).length = 1 := by
  refine ⟨fun o => ⟨getBuildHistory_eq_nil o _ _ _ _ _ _, ?_⟩, ?_, by decide +kernel⟩
  · have hone : (pushesOf sampleConfig sampleHistory sampleTenant "r-1" "").length = 1 := by
      decide +kernel
    rw [length_take, (o.perm _).length_eq, hone]
    rfl
  · rw [getAnalytics_repo, selected_pull_eq_nil]
    exact ⟨by decide, (countBuckets_eq_nil_iff _ _ []).mpr rfl⟩

end OciJanus.Audit.RepositoryViews
