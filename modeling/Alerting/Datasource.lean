import Alerting.Number.Basic
import Alerting.Table
import Alerting.Time.Instant

/-!
# Datasources and what they report

A datasource is of a kind, one product, and kinds belong to families that share a way of being queried
(`DatasourceKind.family?`). The records are what a query of each family brings back.
-/

namespace Alerting

/-- A way of querying that several kinds of datasource share. -/
inductive Family
  /-- Vectors of labelled values. -/
  | metrics
  /-- Counts of log lines in a window. -/
  | logs
  /-- Searches for anomalous traces. -/
  | traces
  /-- Statistics per monitored endpoint. -/
  | cloudMetrics
  /-- Warning events of an orchestrator. -/
  | kubernetesEvents
  deriving DecidableEq, Repr, Inhabited

namespace Family

def name : Family → String
  | metrics => "metrics"
  | logs => "logs"
  | traces => "traces"
  | cloudMetrics => "cloud_metrics"
  | kubernetesEvents => "kubernetes_events"

def ofName? : String → Option Family
  | "metrics" => some metrics
  | "logs" => some logs
  | "traces" => some traces
  | "cloud_metrics" => some cloudMetrics
  | "kubernetes_events" => some kubernetesEvents
  | _ => none

theorem ofName?_name (f : Family) : ofName? f.name = some f := by cases f <;> rfl

end Family

/-- The product behind a datasource. -/
inductive DatasourceKind
  | prometheus
  | victoriaMetrics
  | loki
  | elasticSearch
  | victoriaLogs
  | clickHouse
  | aliCloudSls
  | jaeger
  | cloudWatch
  | kubernetesEvent
  /-- Any product that no family knows. -/
  | unsupported
  deriving DecidableEq, Repr, Inhabited

namespace DatasourceKind

/-- The family of a kind. -/
def family? : DatasourceKind → Option Family
  | prometheus => some .metrics
  | victoriaMetrics => some .metrics
  | loki => some .logs
  | elasticSearch => some .logs
  | victoriaLogs => some .logs
  | clickHouse => some .logs
  | aliCloudSls => some .logs
  | jaeger => some .traces
  | cloudWatch => some .cloudMetrics
  | kubernetesEvent => some .kubernetesEvents
  | unsupported => none

def name : DatasourceKind → String
  | prometheus => "prometheus"
  | victoriaMetrics => "victoria_metrics"
  | loki => "loki"
  | elasticSearch => "elastic_search"
  | victoriaLogs => "victoria_logs"
  | clickHouse => "click_house"
  | aliCloudSls => "ali_cloud_sls"
  | jaeger => "jaeger"
  | cloudWatch => "cloud_watch"
  | kubernetesEvent => "kubernetes_event"
  | unsupported => "unsupported"

/-- The kind of a name; every other name is that of an unsupported kind. -/
def ofName : String → DatasourceKind
  | "prometheus" => prometheus
  | "victoria_metrics" => victoriaMetrics
  | "loki" => loki
  | "elastic_search" => elasticSearch
  | "victoria_logs" => victoriaLogs
  | "click_house" => clickHouse
  | "ali_cloud_sls" => aliCloudSls
  | "jaeger" => jaeger
  | "cloud_watch" => cloudWatch
  | "kubernetes_event" => kubernetesEvent
  | _ => unsupported

theorem ofName_name (k : DatasourceKind) : ofName k.name = k := by cases k <;> rfl

end DatasourceKind

/-- A registered datasource. -/
structure Datasource where
  id : String
  kind : DatasourceKind
  enabled : Bool
  config : Table String
  deriving DecidableEq

/-! ## Reported records -/

/-- A labelled value. -/
structure MetricSeries where
  labels : Table String
  value : Number
  timestamp : Instant
  deriving DecidableEq

/-- An anomalous trace. -/
structure TraceRecord where
  traceId : String
  service : String
  operation : String
  durationMs : Nat
  startTime : Instant
  /-- What was anomalous, or nothing. -/
  message : String
  deriving DecidableEq

/-- The statistic of an endpoint. -/
structure CloudDatapoint where
  endpoint : String
  value : Number
  deriving DecidableEq

/-- A warning event of an orchestrator. -/
structure KubeEvent where
  «namespace» : String
  kind : String
  objectName : String
  reason : String
  message : String
  lastTimestamp : Instant
  deriving DecidableEq

end Alerting
