import Alerting.Json.Domain
import Alerting.Rule.Basic

/-!
# JSON forms of rules

A query is an object whose member `family` names the family and decides how the others are read, or a list that
begins with the family. Its members are taken in before the family is known, so all of them must denote values,
the unknown ones too, and they may not be nested deeper than `maxDepth`.
-/

namespace Alerting

open Json

def SeverityRule.toJson (r : SeverityRule) : Json :=
  .object [("severity", r.severity.toJson), ("expr", .text r.expr)]

def SeverityRule.ofJson? (v : Json) : Option SeverityRule := do
  let f ← v.fields? ["severity", "expr"]
  let severity ← f.required "severity" Severity.ofJson?
  let expr ← f.required "expr" text?
  some ⟨severity, expr⟩

namespace Query

/-! ## Queries -/

def toJson (q : Query) : Json :=
  .object <| ("family", q.family.toJson) :: match q with
    | metrics query => [("query", .text query)]
    | logs query window windowUnit operator expected severity =>
      [("query", .text query), ("window", .nat window), ("window_unit", windowUnit.toJson),
        ("operator", operator.toJson), ("expected", .number expected), ("severity", severity.toJson)]
    | traces service query windowSecs severity =>
      [("service", .text service), ("query", .text query), ("window_secs", .nat windowSecs),
        ("severity", severity.toJson)]
    | cloudMetrics ns metric statistic periodSecs endpoints operator threshold severity =>
      [("namespace", .text ns), ("metric", .text metric), ("statistic", .text statistic),
        ("period_secs", .nat periodSecs), ("endpoints", .texts endpoints), ("operator", operator.toJson),
        ("threshold", .number threshold), ("severity", severity.toJson)]
    | kubernetesEvents ns reasons threshold windowSecs severity =>
      [("namespace", .text ns), ("reasons", .texts reasons), ("threshold", .nat threshold),
        ("window_secs", .nat windowSecs), ("severity", severity.toJson)]

/-- How deep lists and objects may be nested around and inside a query. -/
def maxDepth : Nat := 127

/-- A choice among names inside a query, where an empty object may stand for the null. -/
def choice? {α : Type} (ofName : String → Option α) : Json → Option α
  | .object [(s, .object [])] => ofName s
  | v => Json.choice? ofName v

/-- The query of a family with the given members; the severity is the standard one by default, the unit of a
window seconds, and no namespace and no reason the default for warning events. -/
def ofMembers? (family : Family) (v : Json) : Option Query :=
  match family with
  | .metrics => do
    let f ← v.fields? ["query"]
    let query ← f.required "query" text?
    some (metrics query)
  | .logs => do
    let f ← v.fields? ["query", "window", "window_unit", "operator", "expected", "severity"]
    let query ← f.required "query" text?
    let window ← f.required "window" nat64?
    let windowUnit ← f.withDefault "window_unit" (choice? TimeUnit.ofName?) .seconds
    let operator ← f.required "operator" (choice? Comparison.ofName?)
    let expected ← f.required "expected" number?
    let severity ← f.withDefault "severity" Severity.ofJson? .standard
    some (logs query window windowUnit operator expected severity)
  | .traces => do
    let f ← v.fields? ["service", "query", "window_secs", "severity"]
    let service ← f.required "service" text?
    let query ← f.required "query" text?
    let windowSecs ← f.required "window_secs" nat64?
    let severity ← f.withDefault "severity" Severity.ofJson? .standard
    some (traces service query windowSecs severity)
  | .cloudMetrics => do
    let f ← v.fields?
      ["namespace", "metric", "statistic", "period_secs", "endpoints", "operator", "threshold", "severity"]
    let ns ← f.required "namespace" text?
    let metric ← f.required "metric" text?
    let statistic ← f.required "statistic" text?
    let periodSecs ← f.required "period_secs" nat64?
    let endpoints ← f.required "endpoints" (list? text?)
    let operator ← f.required "operator" (choice? Comparison.ofName?)
    let threshold ← f.required "threshold" number?
    let severity ← f.withDefault "severity" Severity.ofJson? .standard
    some (cloudMetrics ns metric statistic periodSecs endpoints operator threshold severity)
  | .kubernetesEvents => do
    let f ← v.fields? ["namespace", "reasons", "threshold", "window_secs", "severity"]
    let ns ← f.withDefault "namespace" text? ""
    let reasons ← f.withDefault "reasons" (list? text?) []
    let threshold ← f.required "threshold" nat64?
    let windowSecs ← f.required "window_secs" nat64?
    let severity ← f.withDefault "severity" Severity.ofJson? .standard
    some (kubernetesEvents ns reasons threshold windowSecs severity)

/-- The query of a JSON form that lies inside `outer` lists and objects. -/
def ofJson? (outer : Nat) (v : Json) : Option Query :=
  if v.isReadable && outer + v.depth ≤ maxDepth then
    match v with
    | .object members =>
      match members.filter (·.1 == "family") with
      | [(_, .text name)] =>
        (Family.ofName? name).bind fun family => ofMembers? family (.object (members.filter (·.1 != "family")))
      | _ => none
    | .list (.text name :: elems) => (Family.ofName? name).bind fun family => ofMembers? family (.list elems)
    | _ => none
  else none

end Query

namespace Rule

/-! ## Rules -/

def toJson (r : Rule) : Json :=
  .object [("id", .text r.id), ("tenant_id", .text r.tenantId), ("fault_center_id", .text r.faultCenterId),
    ("name", .text r.name), ("datasource_type", r.datasourceKind.toJson),
    ("datasource_ids", .texts r.datasourceIds), ("interval", r.interval.toJson),
    ("for_duration_secs", .nat r.forDurationSecs),
    ("severity_rules", .list (r.severityRules.map SeverityRule.toJson)), ("query", r.query.toJson),
    ("external_labels", r.externalLabels.toJson), ("annotations", .text r.annotations),
    ("effective_time", .ofOption EffectiveTime.toJson r.effectiveTime), ("enabled", .bool r.enabled)]

/-- The rule of a JSON form; no confirmation time, severity rules, labels, annotations or effective time by
default. -/
def ofJson? (v : Json) : Option Rule := do
  let f ← v.fields?
    ["id", "tenant_id", "fault_center_id", "name", "datasource_type", "datasource_ids", "interval",
      "for_duration_secs", "severity_rules", "query", "external_labels", "annotations", "effective_time",
      "enabled"]
  let id ← f.required "id" text?
  let tenantId ← f.required "tenant_id" text?
  let faultCenterId ← f.required "fault_center_id" text?
  let name ← f.required "name" text?
  let datasourceKind ← f.required "datasource_type" DatasourceKind.ofJson?
  let datasourceIds ← f.required "datasource_ids" (list? text?)
  let interval ← f.required "interval" Interval.ofJson?
  let forDurationSecs ← f.withDefault "for_duration_secs" nat64? 0
  let severityRules ← f.withDefault "severity_rules" (list? SeverityRule.ofJson?) []
  let query ← f.required "query" (Query.ofJson? 1)
  let externalLabels ← f.withDefault "external_labels" (table? text?) .empty
  let annotations ← f.withDefault "annotations" text? ""
  let effectiveTime ← f.withDefault "effective_time" (Fields.orNull EffectiveTime.ofJson?) none
  let enabled ← f.required "enabled" bool?
  some ⟨id, tenantId, faultCenterId, name, datasourceKind, datasourceIds, interval, forDurationSecs, severityRules,
    query, externalLabels, annotations, effectiveTime, enabled⟩

end Rule

end Alerting
