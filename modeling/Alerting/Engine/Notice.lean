import Alerting.Config.Basic
import Alerting.Severity

/-!
# Notices

What goes wrong without ending the work at hand is noted for the operator. A `Notice` is a cause; its level, its
message and its named particulars are what is logged.
-/

namespace Alerting

/-- What a panic says. -/
inductive Panic
  | message (text : String)
  /-- A panic without words. -/
  | wordless
  deriving DecidableEq

def Panic.text : Panic → String
  | message text => text
  | wordless => "non-string panic payload"

inductive Level
  | warning
  | error
  deriving DecidableEq

/-- Something noted for the operator. -/
inductive Notice
  | datasourceFailed (rule datasource : String) (error : EngineError)
  | malformedExpression (rule : String) (severity : Severity) (error : EngineError)
  | pushFailed (rule fingerprint : String) (error : EngineError)
  | emptyKey (tenant rule : String)
  | discardFailed (fingerprint : String) (error : EngineError)
  /-- The states of an alert do not allow a move. -/
  | moveRefused (rule : String) (error : EngineError)
  | reactivationNotStored (fingerprint : String) (error : EngineError)
  | pendingNotCleared (fingerprint : String) (error : EngineError)
  | pendingNotStored (fingerprint : String) (error : EngineError)
  | recoveryNotStored (fingerprint : String) (error : EngineError)
  | ruleNotLoaded (rule : String) (error : EngineError)
  | recoveryAborted (rule : String) (error : EngineError)
  | submitFailed (rule : String) (error : EngineError)
  | loopPanicked (rule : String) (panic : Panic) (failures : Nat) (restartIn : Duration)
  deriving DecidableEq

namespace Notice

/-- How serious a notice is: what stops the work of a whole tick or loop is an error. -/
def level : Notice → Level
  | emptyKey .. => .error
  | recoveryAborted .. => .error
  | loopPanicked .. => .error
  | _ => .warning

def message : Notice → String
  | datasourceFailed .. => "datasource evaluation failed"
  | malformedExpression .. => "skipping malformed threshold expression"
  | pushFailed .. => "failed to push event"
  | emptyKey .. => "recovery skipped: empty cache key"
  | discardFailed .. => "failed to discard pre-alert"
  | moveRefused .. => "skipping fingerprint"
  | reactivationNotStored .. => "failed to persist reactivation"
  | pendingNotCleared .. => "failed to clear pending recovery"
  | pendingNotStored .. => "failed to persist pending recovery"
  | recoveryNotStored .. => "failed to persist recovery"
  | ruleNotLoaded .. => "failed to load rule; skipping tick"
  | recoveryAborted .. => "recovery pass aborted"
  | submitFailed .. => "failed to submit rule"
  | loopPanicked .. => "rule loop panicked"

def fields : Notice → List (String × String)
  | datasourceFailed rule datasource error =>
    [("rule_id", rule), ("datasource_id", datasource), ("transient", if error.isTransient then "true" else "false"),
      ("error", error.message)]
  | malformedExpression rule severity error =>
    [("rule_id", rule), ("severity", severity.name), ("error", error.message)]
  | pushFailed rule fingerprint error => [("rule_id", rule), ("fingerprint", fingerprint), ("error", error.message)]
  | emptyKey tenant rule => [("tenant_id", tenant), ("rule_id", rule)]
  | discardFailed fingerprint error => [("fingerprint", fingerprint), ("error", error.message)]
  | moveRefused rule error => [("rule_id", rule), ("error", error.message)]
  | reactivationNotStored fingerprint error => [("fingerprint", fingerprint), ("error", error.message)]
  | pendingNotCleared fingerprint error => [("fingerprint", fingerprint), ("error", error.message)]
  | pendingNotStored fingerprint error => [("fingerprint", fingerprint), ("error", error.message)]
  | recoveryNotStored fingerprint error => [("fingerprint", fingerprint), ("error", error.message)]
  | ruleNotLoaded rule error => [("rule_id", rule), ("error", error.message)]
  | recoveryAborted rule error => [("rule_id", rule), ("error", error.message)]
  | submitFailed rule error => [("rule_id", rule), ("error", error.message)]
  | loopPanicked rule panic failures restartIn =>
    [("rule_id", rule), ("panic", panic.text), ("failures", Nat.repr failures), ("restart_in", restartIn.text)]

end Notice

end Alerting
