import Alerting.Engine.Notice
import Alerting.Rule.Basic

/-!
# Asking a backend

A query becomes a `Request` at a point in time: a query with a trailing window asks from the beginning of the
window (`windowStart`). A window that is longer than any span of time is the rule's defect; one that begins
before time does is a panic. The backend answers with an `Answer` of its family.
-/

namespace Alerting

/-- Why something was cut short. -/
inductive Failure
  | error (e : EngineError)
  | panic (p : Panic)
  deriving DecidableEq

/-- What is asked of a backend. -/
inductive Request
  | vector (query : String)
  | count (query : String) (start stop : Instant)
  | anomalousTraces (service query : String) (start stop : Instant)
  | statistics («namespace» metric statistic : String) (periodSecs : Nat) (endpoints : List String)
  | warningEvents («namespace» : String) (since : Instant)
  deriving DecidableEq

/-- What a backend answers. -/
inductive Answer
  | vector (series : List MetricSeries)
  | count (n : Nat)
  | traces (traces : List TraceRecord)
  | statistics (points : List CloudDatapoint)
  | warningEvents (events : List KubeEvent)
  deriving DecidableEq

def Answer.family : Answer → Family
  | vector _ => .metrics
  | count _ => .logs
  | traces _ => .traces
  | statistics _ => .cloudMetrics
  | warningEvents _ => .kubernetesEvents

namespace Request

/-- The longest span of time. -/
def longestSpan : Duration := ⟨9223372036854775807 * 1000000⟩

/-- The beginning of a window that ends now. -/
def windowStart (now : Instant) (window : Duration) : Except Failure Instant :=
  if window ≤ longestSpan then
    match now.before? window with
    | some start => .ok start
    | none => .error (.panic (.message "`DateTime - TimeDelta` overflowed"))
  else .error (.error (.invalidRule (.windowTooLong window)))

/-- What a query asks at a point in time. -/
def ofQuery (now : Instant) : Query → Except Failure Request
  | .metrics query => .ok (.vector query)
  | .logs query window unit _ _ _ => (windowStart now (unit.duration window)).map fun start => .count query start now
  | .traces service query windowSecs _ =>
    (windowStart now (.ofSecs windowSecs)).map fun start => .anomalousTraces service query start now
  | .cloudMetrics ns metric statistic periodSecs endpoints _ _ _ =>
    .ok (.statistics ns metric statistic periodSecs endpoints)
  | .kubernetesEvents ns _ _ windowSecs _ =>
    (windowStart now (.ofSecs windowSecs)).map fun since => .warningEvents ns since

end Request

/-- What is asked for a rule of a client of the given family. The kind of datasource that the rule names, the
client and the query must be of one family. -/
def Rule.request (rule : Rule) (client : Family) (now : Instant) : Except Failure Request :=
  if rule.datasourceKind.family? = some client ∧ rule.query.family = client then Request.ofQuery now rule.query
  else .error (.error (.unsupportedDatasource rule.datasourceKind.name))

end Alerting
