import Alerting.Engine.Notice
import Alerting.Rule.Basic
import Alerting.Scheduler.Backoff

/-!
# The state of the scheduler

Every submitted rule has a loop that fires ticks. The `Scheduler` knows

* the registered loops by rule (`loops`), each with the token that stops it and its generation;
* the guard of every rule (`guards`): ticks with the same guard run one after the other, in any order;
* the supervisors of the loops, those of stopped loops included until they have left;
* the ticks that have not ended, in the order in which they were fired.

A tick asks for its guard when it first runs, which need not be in the order in which the ticks were fired. Whichever of
the ticks that wait gets the guard first has it (`Scheduler.holder`) until it ends.
Tokens, generations, guards and ticks are numbers that are given out once.
-/

namespace Alerting

/-- A loop that is registered for a rule. -/
structure Registration where
  token : Nat
  generation : Nat
  deriving DecidableEq

/-- What a supervisor does. -/
inductive Phase
  /-- The loop runs; `panics` are those of its ticks that were not dealt with yet, the earliest first. -/
  | looping (panics : List Panic)
  /-- The loop has panicked and waits for its restart. -/
  | backingOff
  /-- The loop has ended, and the supervisor has let go of the guard. -/
  | leaving
  deriving DecidableEq

/-- The supervisor of a loop. -/
structure Supervisor where
  /-- The rule as it was submitted. -/
  rule : Rule
  guard : Nat
  token : Nat
  /-- The generation of the loop that it runs, or ran last. -/
  generation : Nat
  backoff : Backoff
  phase : Phase
  deriving DecidableEq

/-- How far a tick has come. -/
inductive Stage
  /-- It waits for the guard. -/
  | waiting
  /-- It has the guard and evaluates its rule. -/
  | evaluating
  /-- It has the guard and hands its results to the recovery. -/
  | reconciling
  deriving DecidableEq

/-- A tick that has not ended. -/
structure Tick where
  id : Nat
  tenant : String
  rule : String
  guard : Nat
  /-- The token of the loop that fired it. -/
  token : Nat
  /-- The generation of the loop that fired it. -/
  generation : Nat
  stage : Stage
  /-- Whether it is to end without going on, because another tick of its loop panicked. -/
  aborted : Bool
  deriving DecidableEq

/-- The loops of the submitted rules. -/
structure Scheduler where
  loops : Table Registration
  guards : Table Nat
  supervisors : List Supervisor
  /-- The ticks, in the order in which they were fired. -/
  ticks : List Tick
  cancelled : List Nat
  nextToken : Nat
  nextGeneration : Nat
  nextGuard : Nat
  nextTick : Nat
  deriving DecidableEq

namespace Scheduler

def initial : Scheduler where
  loops := .empty
  guards := .empty
  supervisors := []
  ticks := []
  cancelled := []
  nextToken := 0
  nextGeneration := 1
  nextGuard := 0
  nextTick := 0

instance : Inhabited Scheduler := ⟨initial⟩

/-! ## Questions -/

def isRunning (s : Scheduler) (rule : String) : Bool := s.loops.contains rule

def runningCount (s : Scheduler) : Nat := s.loops.size

def isCancelled (s : Scheduler) (token : Nat) : Bool := s.cancelled.contains token

/-- The supervisor of a generation. -/
def supervisor? (s : Scheduler) (generation : Nat) : Option Supervisor :=
  s.supervisors.find? (·.generation == generation)

/-- The tick of a number. -/
def tick? (s : Scheduler) (id : Nat) : Option Tick := s.ticks.find? (·.id == id)

/-- The tick that has a guard. -/
def holder (s : Scheduler) (guard : Nat) : Option Tick :=
  s.ticks.find? fun t => t.guard == guard && t.stage != .waiting

/-- Whether a supervisor or a tick still has a use for a guard. -/
def isUsed (s : Scheduler) (guard : Nat) : Bool :=
  (s.supervisors.any fun v => v.guard == guard && v.phase != .leaving) || s.ticks.any (·.guard == guard)

/-! ## Changes -/

/-- Changes the supervisor of a generation. -/
def updateSupervisor (s : Scheduler) (generation : Nat) (f : Supervisor → Supervisor) : Scheduler :=
  { s with supervisors := s.supervisors.map fun v => if v.generation == generation then f v else v }

def updateTick (s : Scheduler) (id : Nat) (f : Tick → Tick) : Scheduler :=
  { s with ticks := s.ticks.map fun t => if t.id == id then f t else t }

/-- Ends a tick, which gives back its guard. -/
def endTick (s : Scheduler) (id : Nat) : Scheduler := { s with ticks := s.ticks.filter (·.id != id) }

/-! ## Laws -/

/-- A tick is found by its own number among the ticks. -/
theorem tick?_eq_some {s : Scheduler} {id : Nat} {t : Tick} (h : s.tick? id = some t) : t ∈ s.ticks ∧ t.id = id :=
  ⟨List.mem_of_find?_eq_some h, by simpa using List.find?_some h⟩

/-- A supervisor is found by its own generation among the supervisors. -/
theorem supervisor?_eq_some {s : Scheduler} {generation : Nat} {v : Supervisor}
    (h : s.supervisor? generation = some v) : v ∈ s.supervisors ∧ v.generation = generation :=
  ⟨List.mem_of_find?_eq_some h, by simpa using List.find?_some h⟩

/-- A guard is free while all ticks that carry it wait. -/
theorem holder_eq_none_iff {s : Scheduler} {guard : Nat} :
    s.holder guard = none ↔ ∀ t ∈ s.ticks, t.guard = guard → t.stage = .waiting := by
  simp [holder]

/-- The ticks after one has ended are the others. -/
theorem mem_ticks_endTick {s : Scheduler} {id : Nat} {t : Tick} :
    t ∈ (s.endTick id).ticks ↔ t ∈ s.ticks ∧ t.id ≠ id := by
  simp [endTick]

end Scheduler

end Alerting
