import Alerting.Datasource
import Alerting.Interval
import Alerting.Severity
import Alerting.Threshold

/-!
# Rules

A rule says which datasources to query, how often, with which query, and when to alert. A rule can be scheduled
when its identifiers are not empty and its interval is positive (`Rule.validate`).
-/

namespace Alerting

/-- A severity and the threshold expression that calls for it. -/
structure SeverityRule where
  severity : Severity
  expr : String
  deriving DecidableEq

/-- What is asked of the backends of one family, and when the answer calls for an alert. -/
inductive Query
  /-- A vector of labelled values, judged by the severity rules. -/
  | metrics (query : String)
  /-- A count of log lines over a trailing window, compared with an expected value. -/
  | logs (query : String) (window : Nat) (windowUnit : TimeUnit) (operator : Comparison) (expected : Number)
    (severity : Severity)
  /-- The anomalous traces of a service in a trailing window. -/
  | traces (service query : String) (windowSecs : Nat) (severity : Severity)
  /-- A statistic for each endpoint, compared with a threshold. -/
  | cloudMetrics («namespace» metric statistic : String) (periodSecs : Nat) (endpoints : List String)
    (operator : Comparison) (threshold : Number) (severity : Severity)
  /-- Warning events in a trailing window, counted by object and reason; no namespace or reason means all. -/
  | kubernetesEvents («namespace» : String) (reasons : List String) (threshold : Nat) (windowSecs : Nat)
    (severity : Severity)
  deriving DecidableEq

def Query.family : Query → Family
  | metrics .. => .metrics
  | logs .. => .logs
  | traces .. => .traces
  | cloudMetrics .. => .cloudMetrics
  | kubernetesEvents .. => .kubernetesEvents

/-- What to query, how often, and when to alert. -/
structure Rule where
  id : String
  tenantId : String
  /-- The fault center that the rule's events belong to. -/
  faultCenterId : String
  name : String
  datasourceKind : DatasourceKind
  /-- The datasources, all queried on every tick. -/
  datasourceIds : List String
  interval : Interval
  /-- How long an unconfirmed alert must keep matching before it is confirmed. -/
  forDurationSecs : Nat
  /-- The severities of a metrics rule. -/
  severityRules : List SeverityRule
  query : Query
  /-- Labels that every event of the rule gets. -/
  externalLabels : Table String
  /-- The template of the annotations. -/
  annotations : String
  /-- When the rule is evaluated; always if there is none. -/
  effectiveTime : Option EffectiveTime
  enabled : Bool
  deriving DecidableEq

namespace Rule

/-- Whether the rule can be scheduled. -/
def validate (r : Rule) : Except EngineError Unit :=
  if r.id.isEmpty then .error (.invalidRule .emptyId)
  else if r.tenantId.isEmpty then .error (.invalidRule (.emptyTenant r.id))
  else if r.faultCenterId.isEmpty then .error (.invalidRule (.emptyFaultCenter r.id))
  else if r.interval.value = 0 then .error (.invalidRule (.zeroInterval r.id))
  else .ok ()

/-- Whether the rule is to be evaluated at an instant. -/
def isEffectiveAt (r : Rule) (t : Instant) : Bool :=
  match r.effectiveTime with
  | some window => window.contains t
  | none => true

/-- The severity rules, the most urgent first; rules of one severity keep their order. -/
def orderedSeverityRules (r : Rule) : List SeverityRule :=
  r.severityRules.mergeSort fun a b => a.severity.le b.severity

end Rule

end Alerting
