import Alerting.Dispatch.Request
import Alerting.Event.Basic
import Alerting.Fingerprint

/-!
# Findings

A rule judges the answer of a backend without looking at the caches: the result is a list of findings
(`Rule.findings`), in the order in which they are worked off afterwards. A match is an `Observation`, from which
an event is made. On one series only the most urgent matching severity of a metrics rule is current; the others
are suppressed. Every configured endpoint of a cloud rule is current, whether it matches or not.
-/

namespace Alerting

/-- What was seen of one alert instance. -/
structure Observation where
  fingerprint : String
  severity : Severity
  /-- Labels of the instance, the observed value among them. -/
  labels : Table String
  searchQuery : String
  /-- Whether a more urgent severity of the same instance matches too. -/
  suppressed : Bool
  /-- Messages that belong into the annotations. -/
  messages : List String
  deriving DecidableEq

/-- One result of judging an answer. -/
inductive Finding
  /-- An expression that is no threshold; it is passed over. -/
  | malformed (severity : Severity) (error : EngineError)
  | matched (o : Observation)
  /-- No match, and what was observed. -/
  | unmatched (fingerprint value : String)
  /-- No match, and an instance that counts as current all the same. -/
  | configured (fingerprint : String)
  deriving DecidableEq

/-! ## Metrics -/

namespace Metrics

/-- The findings on one series under the given severities; `outranked` says whether a more urgent one matched. -/
def judge (rule query : String) (series : MetricSeries) : (outranked : Bool) → List SeverityRule → List Finding
  | _, [] => []
  | outranked, s :: rest =>
    match Threshold.ofExpr s.expr with
    | .error e => .malformed s.severity e :: judge rule query series outranked rest
    | .ok threshold =>
      let fingerprint := Fingerprint.ofMetric rule s.severity.name series.labels
      let value := series.value.text
      if threshold.holds series.value then
        .matched
          { fingerprint := fingerprint
            severity := s.severity
            labels := series.labels.insert valueLabel value
            searchQuery := query ++ " " ++ threshold.text
            suppressed := outranked
            messages := [] } :: judge rule query series true rest
      else .unmatched fingerprint value :: judge rule query series outranked rest

/-- The findings of a metrics rule: series by series, the most urgent severity first. -/
def findings (rule : Rule) (query : String) (series : List MetricSeries) : List Finding :=
  series.flatMap fun s => judge rule.id query s false rule.orderedSeverityRules

end Metrics

/-! ## Logs -/

namespace Logs

/-- The findings of a log rule, at most one. -/
def findings (rule : Rule) (query : String) (window : Nat) (unit : TimeUnit) (operator : Comparison)
    (expected : Number) (severity : Severity) (count : Nat) : List Finding :=
  if operator.holds (Number.ofNat count) expected then
    [.matched
      { fingerprint := Fingerprint.ofRule rule.id
        severity := severity
        labels := Table.ofList [(valueLabel, Nat.repr count)]
        searchQuery := query ++ " | count over last " ++ Nat.repr window ++ " " ++ unit.title ++ " " ++
          operator.symbol ++ " " ++ expected.text
        suppressed := false
        messages := [] }]
  else []

end Logs

/-! ## Traces -/

namespace Traces

/-- The labels of a trace; its value is its duration. -/
def labels (t : TraceRecord) : Table String :=
  Table.ofList ([("trace_id", t.traceId), ("service", t.service), ("operation", t.operation),
    ("duration_ms", Nat.repr t.durationMs), (valueLabel, Nat.repr t.durationMs)] ++
    if t.message.isEmpty then [] else [("message", t.message)])

/-- The findings of a trace rule, one for every trace. -/
def findings (rule : Rule) (service query : String) (windowSecs : Nat) (severity : Severity)
    (traces : List TraceRecord) : List Finding :=
  traces.map fun t => .matched
    { fingerprint := Fingerprint.ofTrace rule.id t.service t.traceId
      severity := severity
      labels := labels t
      searchQuery := "service=" ++ service ++ " " ++ query ++ " last " ++ Nat.repr windowSecs ++ "s"
      suppressed := false
      messages := [] }

end Traces

/-! ## Cloud metrics -/

namespace Cloud

/-- The value of an endpoint; the last of several counts. -/
def latest (points : List CloudDatapoint) (endpoint : String) : Option Number :=
  (points.reverse.find? (·.endpoint = endpoint)).map (·.value)

/-- The findings of a cloud rule, one for every configured endpoint. -/
def findings (rule : Rule) (ns metric statistic : String) (periodSecs : Nat) (endpoints : List String)
    (operator : Comparison) (threshold : Number) (severity : Severity) (points : List CloudDatapoint) :
    List Finding :=
  endpoints.map fun endpoint =>
    let fingerprint := Fingerprint.ofCloud rule.id metric endpoint
    match (latest points endpoint).filter fun value => operator.holds value threshold with
    | none => .configured fingerprint
    | some value => .matched
        { fingerprint := fingerprint
          severity := severity
          labels := Table.ofList
            [("namespace", ns), ("metric", metric), ("endpoint", endpoint), (valueLabel, value.text)]
          searchQuery := ns ++ "/" ++ metric ++ " " ++ statistic ++ " over " ++ Nat.repr periodSecs ++ "s " ++
            operator.symbol ++ " " ++ threshold.text
          suppressed := false
          messages := [] }

end Cloud

/-! ## Warning events -/

namespace Kube

/-- The events by object and reason, each group in the order of the events. -/
def groups (events : List KubeEvent) : Table (Table (List KubeEvent)) :=
  events.foldl (fun objects e =>
    let reasons := (objects.get? e.objectName).getD .empty
    objects.insert e.objectName (reasons.insert e.reason ((reasons.get? e.reason).getD [] ++ [e]))) .empty

/-- The groups with their object and reason, by object and then by reason. -/
def groupList (events : List KubeEvent) : List (String × String × List KubeEvent) :=
  (groups events).toList.flatMap fun o => o.2.toList.map fun r => (o.1, r.1, r.2)

/-- The finding on one group; its first event stands for the others. -/
def judge (rule : Rule) (ns : String) (threshold windowSecs : Nat) (severity : Severity) (object reason : String) :
    List KubeEvent → Option Finding
  | [] => none
  | first :: more =>
    let size := more.length + 1
    if size < threshold then none
    else some <| .matched
      { fingerprint := Fingerprint.ofKube rule.id first.namespace reason object
        severity := severity
        labels := Table.ofList [("namespace", first.namespace), ("kind", first.kind), ("object_name", object),
          ("reason", reason), (valueLabel, Nat.repr size)]
        searchQuery := "namespace=" ++ (if ns.isEmpty then "*" else ns) ++ " reason=" ++ reason ++ " object=" ++
          object ++ " count >= " ++ Nat.repr threshold ++ " last " ++ Nat.repr windowSecs ++ "s"
        suppressed := false
        messages := (first :: more).map (·.message) }

/-- The findings of a rule on warning events, one for every group that is large enough. -/
def findings (rule : Rule) (ns : String) (reasons : List String) (threshold windowSecs : Nat) (severity : Severity)
    (events : List KubeEvent) : List Finding :=
  let wanted := events.filter fun e => reasons.isEmpty || reasons.contains e.reason
  (groupList wanted).filterMap fun g => judge rule ns threshold windowSecs severity g.1 g.2.1 g.2.2

end Kube

/-! ## All families -/

/-- The findings of a rule on an answer of its family. -/
def Rule.findings (rule : Rule) (answer : Answer) : List Finding :=
  match rule.query, answer with
  | .metrics query, .vector series => Metrics.findings rule query series
  | .logs query window unit operator expected severity, .count n =>
    Logs.findings rule query window unit operator expected severity n
  | .traces service query windowSecs severity, .traces traces =>
    Traces.findings rule service query windowSecs severity traces
  | .cloudMetrics ns metric statistic periodSecs endpoints operator threshold severity, .statistics points =>
    Cloud.findings rule ns metric statistic periodSecs endpoints operator threshold severity points
  | .kubernetesEvents ns reasons threshold windowSecs severity, .warningEvents events =>
    Kube.findings rule ns reasons threshold windowSecs severity events
  | _, _ => []

end Alerting
