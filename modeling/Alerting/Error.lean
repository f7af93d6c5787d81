import Alerting.Status
import Alerting.Time.Duration

/-!
# Errors

An `EngineError` is a cause, with the particulars of its case; `EngineError.message` is its text. The causes that
are expected to pass with time are transient.
-/

namespace Alerting

/-- What is wrong with a rule. -/
inductive RuleDefect
  | emptyId
  | emptyTenant (rule : String)
  | emptyFaultCenter (rule : String)
  | zeroInterval (rule : String)
  /-- No point in time lies that far back. -/
  | windowTooLong (window : Duration)
  | other (reason : String)
  deriving DecidableEq

/-- What is wrong with a threshold expression. -/
inductive ExpressionDefect
  | missingOperator
  | unknownOperator
  | notANumber
  | notFinite
  | other (reason : String)
  deriving DecidableEq

/-- What is wrong with a configuration. -/
inductive ConfigDefect
  | unreadable (path cause : String)
  | malformed
  | noSubmitters
  | noTimeout
  | backoffBounds
  | other (reason : String)
  deriving DecidableEq

/-- Why an operation failed. -/
inductive EngineError
  | invalidRule (defect : RuleDefect)
  | invalidExpression (expr : String) (defect : ExpressionDefect)
  /-- No handler for the kind of datasource, or a client of another family. -/
  | unsupportedDatasource (kind : String)
  | datasourceNotFound (id : String)
  | datasourceDisabled (id : String)
  | datasourceUnhealthy (id : String)
  | queryFailed (id reason : String)
  | queryTimeout (id : String) (seconds : Nat)
  | cache (reason : String)
  | illegalTransition (fingerprint : String) (source target : Status)
  | ruleNotFound (id : String)
  | ruleStore (reason : String)
  | config (defect : ConfigDefect)
  | io (reason : String)
  | serialization (reason : String)
  deriving DecidableEq

namespace RuleDefect

def message : RuleDefect → String
  | emptyId => "rule id cannot be empty"
  | emptyTenant rule => rule ++ ": tenant id cannot be empty"
  | emptyFaultCenter rule => rule ++ ": fault center id cannot be empty"
  | zeroInterval rule => rule ++ ": evaluation interval must be positive"
  | windowTooLong window => "query window " ++ window.text ++ " is out of range"
  | other reason => reason

end RuleDefect

namespace ExpressionDefect

def message : ExpressionDefect → String
  | missingOperator => "missing comparison operator"
  | unknownOperator => "unknown operator"
  | notANumber => "threshold is not a number"
  | notFinite => "threshold must be finite"
  | other reason => reason

end ExpressionDefect

namespace ConfigDefect

def message : ConfigDefect → String
  | unreadable path cause => "failed to read config file '" ++ path ++ "': " ++ cause
  | malformed => "invalid JSON"
  | noSubmitters => "max_concurrent_submits must be at least 1"
  | noTimeout => "query_timeout_secs must be positive"
  | backoffBounds => "restart_backoff_base_ms cannot exceed restart_backoff_max_ms"
  | other reason => reason

end ConfigDefect

namespace EngineError

def message : EngineError → String
  | invalidRule defect => "invalid alert rule: " ++ defect.message
  | invalidExpression expr defect => "invalid threshold expression '" ++ expr ++ "': " ++ defect.message
  | unsupportedDatasource kind => "unsupported datasource type: " ++ kind
  | datasourceNotFound id => "datasource not found: " ++ id
  | datasourceDisabled id => "datasource disabled: " ++ id
  | datasourceUnhealthy id => "datasource unhealthy: " ++ id
  | queryFailed id reason => "query failed on datasource " ++ id ++ ": " ++ reason
  | queryTimeout id seconds => "query on datasource " ++ id ++ " timed out after " ++ Nat.repr seconds ++ "s"
  | cache reason => "cache error: " ++ reason
  | illegalTransition fingerprint source target =>
    "illegal status transition for " ++ fingerprint ++ ": " ++ source.name ++ " -> " ++ target.name
  | ruleNotFound id => "rule not found: " ++ id
  | ruleStore reason => "rule store error: " ++ reason
  | config defect => "invalid configuration: " ++ defect.message
  | io reason => "io error: " ++ reason
  | serialization reason => "serialization error: " ++ reason

/-- Whether the error is expected to clear by itself: timeouts, failing backends and failing caches. -/
def isTransient : EngineError → Bool
  | queryFailed .. => true
  | queryTimeout .. => true
  | datasourceUnhealthy .. => true
  | cache .. => true
  | _ => false

end EngineError

end Alerting
