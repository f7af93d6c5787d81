import Alerting.Event.Basic
import Alerting.Json.Domain

/-!
# JSON forms of events
-/

namespace Alerting

open Json

def Escalation.toJson (e : Escalation) : Json :=
  .object [("confirmed", .bool e.confirmed), ("escalated", .bool e.escalated),
    ("last_escalated_at", .ofOption Instant.toJson e.lastEscalatedAt)]

def Escalation.ofJson? (v : Json) : Option Escalation := do
  let f ← v.fields? ["confirmed", "escalated", "last_escalated_at"]
  let confirmed ← f.required "confirmed" bool?
  let escalated ← f.required "escalated" bool?
  let lastEscalatedAt ← f.optional "last_escalated_at" instant?
  some ⟨confirmed, escalated, lastEscalatedAt⟩

namespace Event

def toJson (e : Event) : Json :=
  .object [("event_id", .text e.id), ("tenant_id", .text e.tenantId), ("fault_center_id", .text e.faultCenterId),
    ("rule_id", .text e.ruleId), ("rule_name", .text e.ruleName), ("fingerprint", .text e.fingerprint),
    ("datasource_id", .text e.datasourceId), ("datasource_type", e.datasourceKind.toJson),
    ("severity", e.severity.toJson), ("status", e.status.toJson), ("labels", e.labels.toJson),
    ("search_query", .text e.searchQuery), ("annotations", .text e.annotations),
    ("first_trigger_time", e.firstTriggerTime.toJson), ("last_eval_time", e.lastEvalTime.toJson),
    ("last_send_time", .ofOption Instant.toJson e.lastSendTime),
    ("recover_time", .ofOption Instant.toJson e.recoverTime), ("upgrade_state", e.escalation.toJson),
    ("recover_wait_secs", .ofOption Json.nat e.recoverWaitSecs)]

/-- The event of a JSON form; no escalation and no grace period of its own by default. -/
def ofJson? (v : Json) : Option Event := do
  let f ← v.fields?
    ["event_id", "tenant_id", "fault_center_id", "rule_id", "rule_name", "fingerprint", "datasource_id",
      "datasource_type", "severity", "status", "labels", "search_query", "annotations", "first_trigger_time",
      "last_eval_time", "last_send_time", "recover_time", "upgrade_state", "recover_wait_secs"]
  let id ← f.required "event_id" text?
  let tenantId ← f.required "tenant_id" text?
  let faultCenterId ← f.required "fault_center_id" text?
  let ruleId ← f.required "rule_id" text?
  let ruleName ← f.required "rule_name" text?
  let fingerprint ← f.required "fingerprint" text?
  let datasourceId ← f.required "datasource_id" text?
  let datasourceKind ← f.required "datasource_type" DatasourceKind.ofJson?
  let severity ← f.required "severity" Severity.ofJson?
  let status ← f.required "status" Status.ofJson?
  let labels ← f.required "labels" (table? text?)
  let searchQuery ← f.required "search_query" text?
  let annotations ← f.required "annotations" text?
  let firstTriggerTime ← f.required "first_trigger_time" instant?
  let lastEvalTime ← f.required "last_eval_time" instant?
  let lastSendTime ← f.optional "last_send_time" instant?
  let recoverTime ← f.optional "recover_time" instant?
  let escalation ← f.withDefault "upgrade_state" Escalation.ofJson? default
  let recoverWaitSecs ← f.withDefault "recover_wait_secs" (Fields.orNull nat64?) none
  some ⟨id, tenantId, faultCenterId, ruleId, ruleName, fingerprint, datasourceId, datasourceKind, severity, status,
    labels, searchQuery, annotations, firstTriggerTime, lastEvalTime, lastSendTime, recoverTime, escalation,
    recoverWaitSecs⟩

end Event

end Alerting
