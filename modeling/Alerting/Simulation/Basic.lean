import Alerting.Recovery
import Alerting.RuleStore
import Alerting.Scheduler.Loops
import Alerting.Scheduler.Ticks
import Alerting.Simulation.Source

/-!
# A simulated scheduler

A `Simulation` runs a scheduler in simulated time against scripted datasources. Its tasks are the loops, the
ticks, the queries of single datasources and the submissions of a bulk restart. Tasks that have something to do
are ready and take turns in the order in which they became ready; running takes no time. A task that waits for a
point in time has an alarm, and alarms of one point in time ring in the order in which they were set.
-/

namespace Alerting

/-- A task of a simulation. -/
inductive Task
  /-- The loop of a generation. -/
  | loop (generation : Nat)
  | tick (id : Nat)
  /-- One of the queries of a tick. -/
  | query (tick index : Nat)
  | submission (rule : Rule)
  deriving DecidableEq

/-- When a task is to be woken. -/
structure Alarm where
  due : Nat
  task : Task
  deriving DecidableEq

/-- How far a query has come. -/
inductive QueryStage
  | fresh
  /-- The client was asked at a point in time, and the query ends with its answer or, if `late`, without. -/
  | asked (client : Client) (now : Instant) (late : Bool)
  deriving DecidableEq

/-- The query of one datasource on behalf of a tick. -/
structure QueryTask where
  tick : Nat
  index : Nat
  rule : Rule
  datasource : String
  stage : QueryStage
  aborted : Bool
  deriving DecidableEq

/-- A tick that waits for its queries. -/
structure Evaluation where
  tick : Nat
  rule : Rule
  gathering : Gathering
  /-- How many queries were not gathered yet. -/
  missing : Nat
  /-- The queries that have ended and were not gathered yet, in the order of their ends. -/
  ended : List (String × Completion)
  deriving DecidableEq

/-- How far a bulk restart has come. -/
structure BulkRestart where
  /-- The rules that were not submitted yet. -/
  waiting : List Rule
  underWay : Nat
  started : Nat
  deriving DecidableEq

/-- The calls of one datasource. -/
structure Traffic where
  /-- How many are under way. -/
  present : Nat
  /-- The most that were ever under way. -/
  most : Nat
  deriving DecidableEq

/-- A scheduler in simulated time. -/
structure Simulation where
  scheduler : Scheduler
  /-- The caches; their time is the simulated time. -/
  engine : Engine
  config : Config
  store : RuleStore
  /-- Rules that are listed beside the stored ones and cannot be loaded. -/
  unstored : List Rule
  sources : Sources
  /-- The wall clock at the beginning. -/
  origin : Instant
  ready : List Task
  alarms : List Alarm
  queries : List QueryTask
  evaluations : List Evaluation
  /-- The calls of backends, the latest first. -/
  calls : List BackendCall
  traffic : Table Traffic
  /-- The latest bulk restart. -/
  bulk : BulkRestart

namespace Simulation

/-- A simulation without rules and datasources. -/
def initial (config : Config) (origin : Instant) : Simulation where
  scheduler := .initial
  engine := .initial
  config := config
  store := .empty
  unstored := []
  sources := .empty
  origin := origin
  ready := []
  alarms := []
  queries := []
  evaluations := []
  calls := []
  traffic := .empty
  bulk := ⟨[], 0, 0⟩

/-- The simulated time in milliseconds. -/
def now (w : Simulation) : Nat := w.engine.time

def clock (w : Simulation) : Instant := w.origin.after (.ofMillis w.now)

/-! ## Tasks and alarms -/

/-- Makes a new task ready. -/
def spawn (w : Simulation) (t : Task) : Simulation := { w with ready := w.ready ++ [t] }

/-- Makes a task ready, unless it is. -/
def wake (w : Simulation) (t : Task) : Simulation := if w.ready.contains t then w else w.spawn t

def setAlarm (w : Simulation) (t : Task) (wait : Wait) : Simulation :=
  { w with alarms := w.alarms ++ [⟨w.now + wait.ms, t⟩] }

def hasAlarm (w : Simulation) (t : Task) : Bool := w.alarms.any (·.task == t)

def clearAlarm (w : Simulation) (t : Task) : Simulation := { w with alarms := w.alarms.filter (·.task != t) }

def nextDue (w : Simulation) : Option Nat := (w.alarms.map (·.due)).min?

/-- Moves on to a point in time and wakes the tasks that waited for it. -/
def ring (w : Simulation) (time : Nat) : Simulation :=
  let (due, later) := w.alarms.partition (·.due ≤ time)
  due.foldl (fun w a => w.wake a.task) { w with engine := w.engine.atTime time, alarms := later }

/-- Notes something for the operator. -/
def note (w : Simulation) (n : Notice) : Simulation := { w with engine := w.engine.note n }

/-! ## Calls of backends -/

def trafficOf (w : Simulation) (datasource : String) : Traffic := (w.traffic.get? datasource).getD ⟨0, 0⟩

def callBegun (w : Simulation) (datasource : String) (request : Request) : Simulation :=
  let t := w.trafficOf datasource
  { w with
    calls := ⟨w.now, datasource, request⟩ :: w.calls
    traffic := w.traffic.insert datasource ⟨t.present + 1, max t.most (t.present + 1)⟩ }

def callOver (w : Simulation) (datasource : String) : Simulation :=
  let t := w.trafficOf datasource
  { w with traffic := w.traffic.insert datasource { t with present := t.present - 1 } }

end Simulation

end Alerting
