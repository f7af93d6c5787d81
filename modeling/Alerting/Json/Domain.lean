import Alerting.FaultCenter
import Alerting.Datasource
import Alerting.Interval
import Alerting.Json.Decode
import Alerting.Severity
import Alerting.Status
import Alerting.Threshold

/-!
# JSON forms of the small types

Reading and writing of states, severities, units, intervals, effective times, comparisons, fault centers,
datasources and the records that backends report. Members named below as having a default may be missing.
-/

namespace Alerting

open Json

/-! ## Names -/

def Status.toJson (s : Status) : Json := .text s.name

def Status.ofJson? : Json → Option Status := choice? Status.ofName?

def Severity.toJson (s : Severity) : Json := .text s.name

def Severity.ofJson? (v : Json) : Option Severity := v.text?.map Severity.mk

def TimeUnit.toJson (u : TimeUnit) : Json := .text u.name

def TimeUnit.ofJson? : Json → Option TimeUnit := choice? TimeUnit.ofName?

def Comparison.toJson (c : Comparison) : Json := .text c.symbol

def Comparison.ofJson? : Json → Option Comparison := choice? Comparison.ofName?

def Family.toJson (f : Family) : Json := .text f.name

def Family.ofJson? : Json → Option Family := choice? Family.ofName?

def DatasourceKind.toJson (k : DatasourceKind) : Json := .text k.name

/-- The kind of a JSON form; an unknown name is that of an unsupported kind. -/
def DatasourceKind.ofJson? : Json → Option DatasourceKind := choice? fun s => some (DatasourceKind.ofName s)

def Instant.toJson (t : Instant) : Json := .text t.text

def Table.toJson (t : Table String) : Json := .object (t.toList.map fun e => (e.1, .text e.2))

/-! ## Intervals and effective times -/

def Interval.toJson (i : Interval) : Json := .object [("value", .nat i.value), ("unit", i.unit.toJson)]

/-- The interval of a JSON form; the unit is seconds by default. -/
def Interval.ofJson? (v : Json) : Option Interval := do
  let f ← v.fields? ["value", "unit"]
  let value ← f.required "value" nat64?
  let unit ← f.withDefault "unit" TimeUnit.ofJson? .seconds
  some ⟨value, unit⟩

def Weekday.ofJson? (v : Json) : Option Weekday := v.text?.bind Weekday.ofName?

def EffectiveTime.toJson (w : EffectiveTime) : Json :=
  .object [("weekdays", .list (w.weekdays.map fun d => .text d.name)), ("start_minute", .nat w.startMinute),
    ("end_minute", .nat w.endMinute)]

/-- The effective time of a JSON form; every day by default. -/
def EffectiveTime.ofJson? (v : Json) : Option EffectiveTime := do
  let f ← v.fields? ["weekdays", "start_minute", "end_minute"]
  let weekdays ← f.withDefault "weekdays" (list? Weekday.ofJson?) []
  let startMinute ← f.required "start_minute" nat32?
  let endMinute ← f.required "end_minute" nat32?
  some ⟨weekdays, startMinute, endMinute⟩

/-! ## Fault centers -/

def FaultCenter.toJson (c : FaultCenter) : Json :=
  .object [("id", .text c.id), ("name", .text c.name), ("recover_wait_secs", .nat c.recoverWaitSecs)]

/-- The settings of a JSON form; no name and no grace period by default. -/
def FaultCenter.ofJson? (v : Json) : Option FaultCenter := do
  let f ← v.fields? ["id", "name", "recover_wait_secs"]
  let id ← f.required "id" text?
  let name ← f.withDefault "name" text? ""
  let recoverWaitSecs ← f.withDefault "recover_wait_secs" nat64? 0
  some ⟨id, name, recoverWaitSecs⟩

/-! ## Datasources and their records -/

def Datasource.toJson (d : Datasource) : Json :=
  .object [("id", .text d.id), ("type", d.kind.toJson), ("enabled", .bool d.enabled), ("config", d.config.toJson)]

/-- The datasource of a JSON form; no connection settings by default. -/
def Datasource.ofJson? (v : Json) : Option Datasource := do
  let f ← v.fields? ["id", "type", "enabled", "config"]
  let id ← f.required "id" text?
  let kind ← f.required "type" DatasourceKind.ofJson?
  let enabled ← f.required "enabled" bool?
  let config ← f.withDefault "config" (table? text?) .empty
  some ⟨id, kind, enabled, config⟩

def MetricSeries.toJson (s : MetricSeries) : Json :=
  .object [("labels", s.labels.toJson), ("value", .number s.value), ("timestamp", s.timestamp.toJson)]

def MetricSeries.ofJson? (v : Json) : Option MetricSeries := do
  let f ← v.fields? ["labels", "value", "timestamp"]
  let labels ← f.required "labels" (table? text?)
  let value ← f.required "value" number?
  let timestamp ← f.required "timestamp" instant?
  some ⟨labels, value, timestamp⟩

def TraceRecord.toJson (t : TraceRecord) : Json :=
  .object [("trace_id", .text t.traceId), ("service", .text t.service), ("operation", .text t.operation),
    ("duration_ms", .nat t.durationMs), ("start_time", t.startTime.toJson), ("message", .text t.message)]

/-- The trace of a JSON form; no message by default. -/
def TraceRecord.ofJson? (v : Json) : Option TraceRecord := do
  let f ← v.fields? ["trace_id", "service", "operation", "duration_ms", "start_time", "message"]
  let traceId ← f.required "trace_id" text?
  let service ← f.required "service" text?
  let operation ← f.required "operation" text?
  let durationMs ← f.required "duration_ms" nat64?
  let startTime ← f.required "start_time" instant?
  let message ← f.withDefault "message" text? ""
  some ⟨traceId, service, operation, durationMs, startTime, message⟩

def CloudDatapoint.toJson (d : CloudDatapoint) : Json :=
  .object [("endpoint", .text d.endpoint), ("value", .number d.value)]

def CloudDatapoint.ofJson? (v : Json) : Option CloudDatapoint := do
  let f ← v.fields? ["endpoint", "value"]
  let endpoint ← f.required "endpoint" text?
  let value ← f.required "value" number?
  some ⟨endpoint, value⟩

def KubeEvent.toJson (e : KubeEvent) : Json :=
  .object [("namespace", .text e.namespace), ("kind", .text e.kind), ("object_name", .text e.objectName),
    ("reason", .text e.reason), ("message", .text e.message), ("last_timestamp", e.lastTimestamp.toJson)]

def KubeEvent.ofJson? (v : Json) : Option KubeEvent := do
  let f ← v.fields? ["namespace", "kind", "object_name", "reason", "message", "last_timestamp"]
  let ns ← f.required "namespace" text?
  let kind ← f.required "kind" text?
  let objectName ← f.required "object_name" text?
  let reason ← f.required "reason" text?
  let message ← f.required "message" text?
  let lastTimestamp ← f.required "last_timestamp" instant?
  some ⟨ns, kind, objectName, reason, message, lastTimestamp⟩

end Alerting
