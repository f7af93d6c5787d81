import Alerting.Recovery
import Alerting.Simulation.Round
import Alerting.Simulation.Source

/-!
# A test bench for dispatches and recovery passes

A `Bench` runs single dispatches and recovery passes against scripted datasources. A dispatch asks the datasources
of a rule in rounds, all at the same time; those that answer without delay are settled in the order of the rule, the
others when their delay or the timeout is over. After a round in which a datasource has panicked no more are asked
(`Bench.ask`).
-/

namespace Alerting

/-- An engine with its datasources. -/
structure Bench where
  engine : Engine
  sources : Sources
  config : Config
  timeout : Duration
  clock : Instant
  /-- The calls of backends, in order. -/
  calls : List BackendCall
  /-- How many tasks were aborted by a panic and have not had their last turn yet. -/
  aborted : Nat
  latest : Report

namespace Bench

def initial (config : Config) (timeout : Duration) : Bench :=
  ⟨.initial, .empty, config, timeout, .epoch, [], 0, ⟨[], [], 0, 0, 0⟩⟩

/-- What comes of asking one datasource, and the call of its backend. -/
def read (b : Bench) (rule : Rule) (id : String) : Reading × List BackendCall :=
  match b.sources.ask rule id b.clock with
  | .error f => (⟨id, b.clock, 0, .error f⟩, [])
  | .ok (request, client) =>
    let limit := Wait.ofDuration b.timeout
    let reading : Reading :=
      if client.outlasts limit then ⟨id, b.clock, limit.ms, .error (.error (timedOut id b.timeout))⟩
      else ⟨id, b.clock, client.delay.ms, client.reply⟩
    (reading, [⟨b.engine.time, id, request⟩])

/-- Whether a datasource panicked. -/
def panics (r : Reading) : Bool :=
  match r.reply with
  | .error (.panic _) => true
  | _ => false

/-- What comes of asking the datasources of some rounds, one round after the other until one panics at once. -/
def ask (b : Bench) (rule : Rule) : List (List String) → List (Reading × List BackendCall)
  | [] => []
  | round :: rest =>
    let asked := round.map (b.read rule)
    if asked.any fun r => r.1.elapsed == 0 && panics r.1 then asked else asked ++ b.ask rule rest

/-- How many tasks a dispatch leaves behind: those that were not settled when the first panic came. -/
def leftBehind (tasks : Nat) (settled : List Reading) : Nat :=
  match settled.find? panics with
  | some p => tasks - settled.countP (·.elapsed ≤ p.elapsed)
  | none => 0

def dispatch (b : Bench) (rule : Rule) : Except Panic Report × Bench :=
  let asked := b.ask rule (inRounds b.aborted rule.datasourceIds)
  let settled := (asked.map (·.1)).mergeSort fun x y => x.elapsed ≤ y.elapsed
  let (r, e) := b.engine.dispatch rule settled
  (r, { b with
    engine := e
    calls := b.calls ++ asked.flatMap (·.2)
    aborted := if rule.datasourceIds.isEmpty then b.aborted else leftBehind rule.datasourceIds.length settled
    latest := match r with
      | .ok report => report
      | .error _ => b.latest })

/-- Reconciles the events of a scope. -/
def reconcile (b : Bench) (scope : Scope) (current suppressed : List String) (now : Instant) :
    Except EngineError RecoveryReport × Bench :=
  let (r, e) := b.engine.reconcile b.config scope current suppressed now
  (r, { b with engine := e })

/-- The bench at the beginning of a step: nothing is recorded yet, and the time is zero. -/
def cleared (b : Bench) : Bench :=
  { b with calls := [], engine := { b.engine with time := 0, writes := [], notices := [] } }

end Bench

end Alerting
