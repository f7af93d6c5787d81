import Alerting.Rule.Basic

/-!
# Events

An event is the record of one alert. A match of a rule makes a draft (`Event.draft`), which is merged over the
record that is already stored under its fingerprint (`Event.mergeOver`): a live record keeps its identity and its
history, a recovered one gives way to a new generation. Other changes of state go through `Event.transition`.
-/

namespace Alerting

/-- The label of the latest observed value. -/
def valueLabel : String := "value"

/-- The label of the value that was observed when the alert first matched. -/
def firstValueLabel : String := "first_value"

def severityLabel : String := "severity"

def ruleNameLabel : String := "rule_name"

/-- What the notification of an alert has come to. -/
structure Escalation where
  confirmed : Bool
  escalated : Bool
  lastEscalatedAt : Option Instant
  deriving DecidableEq

instance : Inhabited Escalation := ⟨⟨false, false, none⟩⟩

/-- The record of one alert. -/
structure Event where
  /-- The generation of the alert. -/
  id : String
  tenantId : String
  faultCenterId : String
  ruleId : String
  ruleName : String
  /-- The identity of the alert, the same from tick to tick. -/
  fingerprint : String
  datasourceId : String
  datasourceKind : DatasourceKind
  severity : Severity
  status : Status
  labels : Table String
  /-- What was asked of the backend. -/
  searchQuery : String
  annotations : String
  /-- When the generation first matched. -/
  firstTriggerTime : Instant
  lastEvalTime : Instant
  /-- When a notification was last sent or held back. -/
  lastSendTime : Option Instant
  recoverTime : Option Instant
  escalation : Escalation
  /-- A grace period of its own, in seconds. -/
  recoverWaitSecs : Option Nat
  deriving DecidableEq

namespace Event

/-- An unconfirmed event of a rule. The rule's labels fill in where the observation has none, and the severity
and the name of the rule are always labels. -/
def draft (rule : Rule) (datasourceId fingerprint : String) (severity : Severity) (labels : Table String)
    (id : String) (now : Instant) : Event where
  id := id
  tenantId := rule.tenantId
  faultCenterId := rule.faultCenterId
  ruleId := rule.id
  ruleName := rule.name
  fingerprint := fingerprint
  datasourceId := datasourceId
  datasourceKind := rule.datasourceKind
  severity := severity
  status := .preAlert
  labels :=
    ((rule.externalLabels.toList.foldl (fun ls e => ls.insertIfNew e.1 e.2) labels).insert severityLabel
      severity.name).insert ruleNameLabel rule.name
  searchQuery := ""
  annotations := ""
  firstTriggerTime := now
  lastEvalTime := now
  lastSendTime := none
  recoverTime := none
  escalation := default
  recoverWaitSecs := none

def value? (e : Event) : Option String := e.labels.get? valueLabel

def setValue (e : Event) (value : String) : Event := { e with labels := e.labels.insert valueLabel value }

/-- The event moved to another state, if the states allow it. -/
def transition (e : Event) (target : Status) (time : Instant) : Except EngineError Event :=
  if e.status.allows target then
    .ok { e with
      status := target
      lastEvalTime := time
      recoverTime := if target = .recovered ∧ e.status ≠ .recovered then some time else e.recoverTime }
  else .error (.illegalTransition e.fingerprint e.status target)

/-- The value that was first observed, as far as the labels tell. -/
def firstValue? (e : Event) : Option String :=
  match e.labels.get? firstValueLabel with
  | some v => some v
  | none => e.value?

/-- A draft as the first record of a new generation. -/
def started (e : Event) (now : Instant) : Event :=
  { e with
    lastEvalTime := now
    firstTriggerTime := now
    labels := match e.value? with
      | some v => e.labels.insertIfNew firstValueLabel v
      | none => e.labels }

/-- A draft as the next record of a live generation, which is confirmed once it has matched long enough. -/
def continued (e cached : Event) (forDuration : Duration) (now : Instant) : Event :=
  { e with
    id := cached.id
    lastEvalTime := now
    firstTriggerTime := cached.firstTriggerTime
    escalation := cached.escalation
    recoverWaitSecs := e.recoverWaitSecs.or cached.recoverWaitSecs
    lastSendTime := e.lastSendTime.or cached.lastSendTime
    labels := match cached.firstValue? with
      | some v => e.labels.insert firstValueLabel v
      | none => e.labels
    status :=
      if cached.status = .preAlert ∧ forDuration ≤ now.elapsedSince cached.firstTriggerTime then .alerting
      else cached.status }

/-- A draft merged over the record stored under its fingerprint. -/
def mergeOver (e : Event) (cached : Option Event) (forDuration : Duration) (now : Instant) : Event :=
  match cached with
  | some c => if c.status.isTerminal then e.started now else e.continued c forDuration now
  | none => e.started now

end Event

end Alerting
