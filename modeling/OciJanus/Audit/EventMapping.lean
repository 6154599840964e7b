import OciJanus.Audit.Insert
import OciJanus.Verified.JsonFields

/-!
# From platform events to audit rows

A row has its metadata as the value that the `jsonb` column holds.
-/

namespace OciJanus.Audit.EventMapping

open Verified Sha256 Json Rfc3339
open Audit.HashChain (AuditEvent UUID)

inductive EventType where
  | pushCompleted
  | pullImage
  | pushFailed
  | webhookFailed
  | manifestDeleted
  | tagDeleted
  | scanCompleted
  | scanPolicyBlocked
  | imageSigned
  | imagePromoted
  | repoCVSSPolicyChanged
  | prNamespaceProvisioned
  | prNamespaceTornDown
  | tenantCreated
  | retentionEvaluated
  | retentionApplied
  | retentionGraceCompleted
  | serviceAccountLifecycle
  | scanQueued
  | webhookQueued
  | webhookDelivered
  | gcRunStarted
  | gcRunCompleted
  | tenantDeleted
  | tenantRenamed
  | tenantPlanChanged
  | storeQueued
  | cachePopulated
  | rbacRoleGranted
  | rbacRoleRevoked
  | oidcTrustCreated
  | oidcTrustUpdated
  | oidcTrustDeleted
  | workloadTokenExchanged
  | workloadTokenRejected
  | tokenPolicyChanged
  | keyRevoked
  | accessReviewDue
  | accessReviewSnoozed
  | other (routingKey : String)
  deriving DecidableEq

structure Event where
  id : String
  type : EventType
  tenantID : String
  occurredAt : Time
  payload : Bytes

structure Entry where
  tenantID : UUID
  (actorID actorType actorIP action resource outcome : String)
  metadata : Option Value
  occurredAt : Time

def Entry.auditEvent (e : Entry) (text : Option Bytes) : AuditEvent where
  id := UUID.nil
  tenantID := e.tenantID
  actorID := e.actorID
  actorType := e.actorType
  actorIP := e.actorIP
  action := e.action
  resource := e.resource
  outcome := e.outcome
  metadata := text
  occurredAt := e.occurredAt

namespace Event

variable (ev : Event)

def str (name : String) : String := lastField Value.str? name "" (membersOf ev.payload)

def bool (name : String) : Bool := lastField Value.bool? name false (membersOf ev.payload)

def int (name : String) : Int :=
  lastField (Value.int? 9223372036854775808) name 0 (membersOf ev.payload)

def payloadString : String := String.ofList (Verified.Utf8.decodeUtf8 ev.payload)

def raw : Option Value := if ev.payload = [] then some .null else unmarshal ev.payload

def metadata : Option Value :=
  ev.raw.map fun v => .obj (.cons "event_id" (.str ev.id) (.cons "raw" v .nil))

def gcMetadata : Option Value :=
  let details : Value := .obj (.cons "blobs_deleted" (.number (.ofInt (ev.int "blobs_deleted")))
      (.cons "bytes_freed" (.number (.ofInt (ev.int "bytes_freed")))
        (.cons "dry_run" (.bool (ev.bool "dry_run"))
          (.cons "manifests_deleted" (.number (.ofInt (ev.int "manifests_deleted")))
            (.cons "mode" (.str (ev.str "mode")) .nil)))))
  ev.raw.map fun v =>
    .obj (.cons "details" details (.cons "event_id" (.str ev.id) (.cons "raw" v .nil)))

end Event

def accessReviewDueFields : List (String × FieldType) :=
  [("tenant_id", .string), ("key_id", .string), ("owner_user_id", .string), ("name", .string),
    ("reason", .string), ("days_idle", .int 2147483648)]

def accessReviewSnoozedFields : List (String × FieldType) :=
  [("tenant_id", .string), ("key_id", .string), ("actor_id", .string),
    ("snoozed_until", .string), ("days_snoozed", .int 2147483648)]

structure Actor where
  (id type : String)

def Actor.user (id : String) : Actor := ⟨id, "user"⟩

def Actor.system : Actor := ⟨"system", "system"⟩

def Actor.anonymous : Actor := ⟨"anonymous", "anonymous"⟩

def Actor.userOrSystem (id : String) : Actor := if id = "" then .system else .user id

structure Description where
  actor : Actor
  (action resource : String)
  outcome : String := "success"
  actorIP : String := ""

def imageName (repositoryName tag digest : String) : String :=
  if tag ≠ "" then repositoryName ++ ":" ++ tag
  else if digest ≠ "" then repositoryName ++ "@" ++ digest
  else repositoryName

def describe (ev : Event) : Option Description :=
  match ev.type with
  | .pushCompleted =>
    some { actor := .user (ev.str "pushed_by"), action := "push.image"
           resource := ev.str "repository_name" ++ ":" ++ ev.str "tag" }
  | .pullImage =>
    some { actor := if ev.str "actor_id" = "" then .anonymous else .user (ev.str "actor_id")
           action := "pull.image"
           resource :=
             imageName (ev.str "repository_name") (ev.str "tag") (ev.str "manifest_digest") }
  | .pushFailed =>
    some { actor := .user (ev.str "pushed_by"), action := "push.failed"
           resource := ev.str "repository_name" ++ ":" ++ ev.str "tag", outcome := "failure" }
  | .webhookFailed =>
    some { actor := .system, action := "webhook.delivery_failed"
           resource := ev.payloadString, outcome := "failure" }
  | .manifestDeleted =>
    some { actor := .userOrSystem (ev.str "deleted_by"), action := "delete.manifest"
           resource := ev.str "repository_name" ++ "@" ++ ev.str "digest" }
  | .tagDeleted =>
    some { actor := .userOrSystem (ev.str "deleted_by"), action := "delete.tag"
           resource := ev.str "repository_name" ++ ":" ++ ev.str "tag" }
  | .scanCompleted =>
    some { actor := .system, action := "scan.completed", resource := ev.str "manifest_digest"
           outcome := if ev.bool "policy_violation" then "failure" else "success" }
  | .scanPolicyBlocked =>
    some { actor := .system, action := "scan.policy_blocked"
           resource := ev.str "manifest_digest", outcome := "failure" }
  | .imageSigned =>
    some { actor := .system, action := "image.signed", resource := ev.payloadString }
  | .imagePromoted =>
    some { actor := .userOrSystem (ev.str "actor_user_id"), action := "image.promoted"
           resource :=
             ev.str "dst_org" ++ "/" ++ ev.str "dst_repo" ++ ":" ++ ev.str "dst_tag" }
  | .repoCVSSPolicyChanged =>
    some { actor := .userOrSystem (ev.str "actor_id"), action := "repo.cvss_policy.changed"
           resource := ev.str "org" ++ "/" ++ ev.str "repo" }
  | .prNamespaceProvisioned =>
    some { actor := .system, action := "pr.namespace.provisioned", resource := ev.str "org_name" }
  | .prNamespaceTornDown =>
    some { actor := .system, action := "pr.namespace.torn_down", resource := ev.str "org_name" }
  | .tenantCreated => some { actor := .system, action := "tenant.created", resource := "" }
  | .retentionEvaluated =>
    some { actor := .system, action := "retention.evaluated"
           resource := ev.str "repository_id" }
  | .retentionApplied =>
    some { actor := .system, action := "retention.applied", resource := ev.str "repository_id" }
  | .retentionGraceCompleted =>
    some { actor := .system, action := "retention.grace_completed", resource := "" }
  | .serviceAccountLifecycle =>
    some { actor := if ev.str "actor_id" = "" ∨ ev.str "actor_id" = "system" then .system
                    else .user (ev.str "actor_id")
           action := ev.str "action", resource := ev.str "resource"
           actorIP := ev.str "source_ip" }
  | .scanQueued =>
    some { actor := .system, action := "scan.queue"
           resource := imageName (ev.str "repository_name") (ev.str "tag_name")
             (ev.str "manifest_digest") }
  | .webhookQueued =>
    some { actor := .system, action := "webhook.queue", resource := ev.payloadString }
  | .webhookDelivered =>
    some { actor := .system, action := "webhook.deliver", resource := ev.payloadString }
  | .gcRunStarted => some { actor := .system, action := "gc.start", resource := ev.id }
  | .gcRunCompleted => some { actor := .system, action := "gc.complete", resource := ev.id }
  | .tenantDeleted =>
    some { actor := .userOrSystem (ev.str "actor_id"), action := "tenant.delete"
           resource := ev.str "tenant_id" }
  | .tenantRenamed =>
    some { actor := .userOrSystem (ev.str "actor_id"), action := "tenant.rename"
           resource := ev.str "tenant_id" }
  | .tenantPlanChanged =>
    some { actor := .userOrSystem (ev.str "actor_id"), action := "tenant.plan_change"
           resource := ev.str "tenant_id" }
  | .storeQueued =>
    let object := if ev.str "image" ≠ "" then ev.str "upstream_name" ++ "/" ++ ev.str "image"
      else ev.str "upstream_name"
    some { actor := .system, action := "proxy.store.queue"
           resource := if object = "" then ev.payloadString else object }
  | .cachePopulated =>
    let object := ev.str "upstream_name" ++ "/" ++ ev.str "image"
    some { actor := .system, action := "proxy.cache.populate"
           resource := if ev.str "reference" ≠ "" then object ++ ":" ++ ev.str "reference"
             else object }
  | .rbacRoleGranted =>
    some { actor := .user (ev.str "granted_by"), action := "rbac.grant"
           resource := ev.str "user_id" ++ ":" ++ ev.str "role" ++ ":" ++ ev.str "scope_type" ++
             ":" ++ ev.str "scope_value" }
  | .rbacRoleRevoked =>
    some { actor := .user (ev.str "revoked_by"), action := "rbac.revoke"
           resource := ev.str "assignment_id" }
  | .oidcTrustCreated =>
    some { actor := .userOrSystem (ev.str "actor_id"), action := "auth.oidc_trust.created"
           resource := ev.str "trust_id" }
  | .oidcTrustUpdated =>
    some { actor := .userOrSystem (ev.str "actor_id"), action := "auth.oidc_trust.updated"
           resource := ev.str "trust_id" }
  | .oidcTrustDeleted =>
    some { actor := .userOrSystem (ev.str "actor_id"), action := "auth.oidc_trust.deleted"
           resource := ev.str "trust_id" }
  | .workloadTokenExchanged =>
    some { actor := if ev.str "service_account_id" = "" then .system
                    else ⟨ev.str "service_account_id", "service_account"⟩
           action := "auth.workload_token.exchanged", resource := ev.str "trust_id" }
  | .workloadTokenRejected =>
    some { actor := .anonymous, action := "auth.workload_token.rejected"
           resource := ev.str "trust_id", outcome := "failure" }
  | .tokenPolicyChanged =>
    some { actor := .userOrSystem (ev.str "actor_id"), action := "auth.token_policy.changed"
           resource := ev.str "tenant_id" }
  | .keyRevoked =>
    some { actor := .system, action := "auth.key_revoked", resource := ev.str "key_id" }
  | .accessReviewDue =>
    if unmarshals accessReviewDueFields ev.payload then
      some { actor := .system, action := "auth.access_review.due", resource := ev.str "key_id" }
    else none
  | .accessReviewSnoozed =>
    if unmarshals accessReviewSnoozedFields ev.payload then
      -- The type stays "user" when the actor falls back to the system.
      some { actor := .user (if ev.str "actor_id" = "" then "system" else ev.str "actor_id")
             action := "auth.access_review.snoozed", resource := ev.str "key_id" }
    else none
  | .other _ => none

def mapEvent (now : Time) (tenantID : UUID) (ev : Event) : Option Entry :=
  (describe ev).map fun d =>
    { tenantID := tenantID
      actorID := d.actor.id
      actorType := d.actor.type
      actorIP := d.actorIP
      action := d.action
      resource := d.resource
      outcome := d.outcome
      metadata := if ev.type = .gcRunCompleted then ev.gcMetadata else ev.metadata
      occurredAt := if ev.occurredAt = 0 then now else ev.occurredAt }

def Entry.eventID (e : Entry) : Option String :=
  e.metadata.bind (Value.memberText "event_id")

theorem mapEvent_eventID {now : Time} {tenantID : UUID} {ev : Event} {e : Entry}
    (h : mapEvent now tenantID ev = some e) (hraw : ev.raw.isSome) :
    e.tenantID = tenantID ∧ e.eventID = some ev.id := by
  obtain ⟨v, hv⟩ := Option.isSome_iff_exists.mp hraw
  obtain ⟨d, _, rfl⟩ := Option.map_eq_some_iff.mp h
  refine ⟨rfl, ?_⟩
  unfold Entry.eventID
  by_cases hgc : ev.type = .gcRunCompleted
  · simp [hgc, Event.gcMetadata, hv, Value.memberText, Value.member, Members.get, Value.scalarText]
  · simp [hgc, Event.metadata, hv, Value.memberText, Value.member, Members.get, Value.scalarText]

end OciJanus.Audit.EventMapping
