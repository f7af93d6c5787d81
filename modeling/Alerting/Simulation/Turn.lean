import Alerting.Simulation.Loop
import Alerting.Simulation.Tick

/-!
# Turns

From outside rules are submitted, stopped and restarted; the loops hear of that at their next turn. In its turn a task
does what it has to do (`Simulation.turn`), and ready tasks take turns in the order in which they became ready
(`Simulation.drainFor`).
-/

namespace Alerting

/-- Whether the task is a submission of a bulk restart. -/
def Task.isSubmission : Task → Bool
  | .submission _ => true
  | _ => false

namespace Simulation

/-! ## From outside -/

/-- Tells a loop that it was stopped. -/
def tell (w : Simulation) (r : Option Registration) : Simulation :=
  match r with
  | some r => w.wake (.loop r.generation)
  | none => w

/-- Stops the loop of a rule, and says whether there was one. -/
def stop (w : Simulation) (rule : String) : Bool × Simulation :=
  let (r, s) := w.scheduler.stop rule
  (r.isSome, { w with scheduler := s }.tell r)

/-- Submits a rule, and says whether its loop was started. -/
def submit (w : Simulation) (rule : Rule) : Except EngineError Bool × Simulation :=
  match w.scheduler.submit rule with
  | (.error e, s) => (.error e, { w with scheduler := s })
  | (.ok none, s) => (.ok false, { w with scheduler := s })
  | (.ok (some generation), s) => (.ok true, { w with scheduler := s }.spawn (.loop generation))

/-- Stops the loop of a rule, if there is one, and submits the rule. -/
def restart (w : Simulation) (rule : Rule) : Except EngineError Bool × Simulation := (w.stop rule.id).2.submit rule

/-! ## Turns -/

/-- The turn of a submission in a bulk restart. -/
def turnSubmission (w : Simulation) (rule : Rule) : Simulation :=
  match { w with bulk := { w.bulk with underWay := w.bulk.underWay - 1 } }.restart rule with
  | (.ok true, w) => { w with bulk := { w.bulk with started := w.bulk.started + 1 } }
  | (.ok false, w) => w
  | (.error e, w) => w.note (.submitFailed rule.id e)

def turn (w : Simulation) : Task → Simulation
  | .loop generation =>
    match w.scheduler.supervisor? generation with
    | some v => w.turnLoop v
    | none => w
  | .tick id =>
    match w.scheduler.tick? id with
    | some t => w.turnTick t
    | none => w
  | .query tick index =>
    match w.query? tick index with
    | some q => w.turnQuery q
    | none => w
  | .submission rule => w.turnSubmission rule

/-- Gives turns to ready tasks, at most `n` of them. -/
def drainFor : Nat → Simulation → Simulation
  | 0, w => w
  | n + 1, w =>
    match w.ready with
    | [] => w
    | t :: rest => drainFor n ({ w with ready := rest }.turn t)

end Simulation

end Alerting
