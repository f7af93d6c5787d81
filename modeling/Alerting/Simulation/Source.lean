import Alerting.Dispatch.Report
import Alerting.Simulation.Wait

/-!
# Scripted datasources

In a simulation every datasource follows a script: whether it is registered, switched on and healthy, and what its
client does when it is called. A datasource is checked in that order before its client is asked (`Sources.ask`).
-/

namespace Alerting

/-- What a client does when it is called: it waits, and then it panics, fails or answers. -/
structure Client where
  delay : Wait
  panic : Option Panic
  fail : Option EngineError
  data : Answer
  deriving DecidableEq

/-- What comes of a call when the wait is over. -/
def Client.reply (c : Client) : Except Failure Answer :=
  match c.panic, c.fail with
  | some p, _ => .error (.panic p)
  | none, some e => .error (.error e)
  | none, none => .ok c.data

/-- Whether the client has not answered when a limit is over. It has if both end together. -/
def Client.outlasts (c : Client) (limit : Wait) : Bool := limit.ms < c.delay.ms

/-- The script of a call that was made under one script and ends under another: the wait is as it was, whether the
call panics or fails is as it is now, and so is the data if it is still of the family that was asked. -/
def Client.turnedInto (asked present : Client) : Client :=
  { present with
    delay := asked.delay
    data := if present.data.family = asked.data.family then present.data else asked.data }

/-- The script of a datasource. -/
structure Source where
  registered : Bool
  enabled : Bool
  healthy : Bool
  client : Option Client
  deriving DecidableEq

/-- A new datasource: switched on and healthy, and without a client. -/
def Source.fresh : Source := ⟨true, true, true, none⟩

/-- The scripts of all datasources. -/
abbrev Sources := Table Source

namespace Sources

/-- The client of a datasource that may be asked. -/
def clientOf (s : Sources) (id : String) : Except EngineError Client :=
  match (Table.get? s id).filter (·.registered) with
  | none => .error (.datasourceNotFound id)
  | some source =>
    if !source.enabled then .error (.datasourceDisabled id)
    else if !source.healthy then .error (.datasourceUnhealthy id)
    else
      match source.client with
      | none => .error (.datasourceNotFound id)
      | some client => .ok client

/-- What a rule asks of a datasource, and the client that is asked. -/
def ask (s : Sources) (rule : Rule) (id : String) (now : Instant) : Except Failure (Request × Client) :=
  match s.clientOf id with
  | .error e => .error (.error e)
  | .ok client => (rule.request client.data.family now).map fun request => (request, client)

end Sources

/-- A call of a backend: when, which datasource, and what was asked. -/
structure BackendCall where
  time : Nat
  datasource : String
  request : Request
  deriving DecidableEq

/-- The error of a datasource that was asked and did not answer in time. -/
def timedOut (id : String) (timeout : Duration) : EngineError := .queryTimeout id timeout.secs

end Alerting
