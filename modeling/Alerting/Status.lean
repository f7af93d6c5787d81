/-!
# The states of an alert

An alert is first unconfirmed, then active, then absent within its grace period, and at last recovered. The moves
between the states are the edges of `Status.allows`; a recovered alert stays so.
-/

namespace Alerting

/-- The state of one alert. -/
inductive Status
  /-- The condition holds and is not yet confirmed. -/
  | preAlert
  /-- Confirmed and notifying. -/
  | alerting
  /-- The condition no longer holds, and the grace period runs. -/
  | pendingRecovery
  /-- The condition stayed absent for the whole grace period. -/
  | recovered
  deriving DecidableEq, Repr, Inhabited

namespace Status

def name : Status → String
  | preAlert => "pre_alert"
  | alerting => "alerting"
  | pendingRecovery => "pending_recovery"
  | recovered => "recovered"

def ofName? : String → Option Status
  | "pre_alert" => some preAlert
  | "alerting" => some alerting
  | "pending_recovery" => some pendingRecovery
  | "recovered" => some recovered
  | _ => none

/-- Whether an alert may move from the first state to the second; it may always stay. -/
def allows : Status → Status → Bool
  | preAlert, preAlert => true
  | preAlert, alerting => true
  | alerting, alerting => true
  | alerting, pendingRecovery => true
  | pendingRecovery, pendingRecovery => true
  | pendingRecovery, alerting => true
  | pendingRecovery, recovered => true
  | recovered, recovered => true
  | _, _ => false

/-- Whether the state ends the life of an alert. -/
def isTerminal : Status → Bool
  | recovered => true
  | _ => false

theorem ofName?_name (s : Status) : ofName? s.name = some s := by cases s <;> rfl

end Status

end Alerting
