import Alerting.Simulation.Basic

/-!
# Simulated loops

A loop fires its first tick at once and the others at its interval. It ends when its token is cancelled. When one
of its ticks has panicked, it aborts the others and starts again after a delay.
-/

namespace Alerting.Simulation

/-- Ends a loop. -/
def leaveLoop (w : Simulation) (generation : Nat) : Simulation :=
  { w with scheduler := (w.scheduler.leave generation).exit generation }.clearAlarm (.loop generation)

/-- Fires a tick, and sets the alarm for the next one. -/
def fireTick (w : Simulation) (generation : Nat) (rule : Rule) : Simulation :=
  let (id, s) := w.scheduler.fire generation
  let w := { w with scheduler := s }
  let w := match id with
    | some id => w.spawn (.tick id)
    | none => w
  w.setAlarm (.loop generation) (.ofDuration rule.interval.duration)

/-- Starts a loop again after its delay, or gives it up. -/
def renewLoop (w : Simulation) (v : Supervisor) : Simulation :=
  match w.scheduler.renew v.generation with
  | (some generation, s) => { w with scheduler := s }.fireTick generation v.rule
  | (none, s) => { w with scheduler := s.exit v.generation }

/-- Deals with a panic in a loop. -/
def backOff (w : Simulation) (v : Supervisor) : Simulation :=
  match w.scheduler.takePanic w.config (.ofMillis w.now) v.generation with
  | (none, _) => w
  | (some (p, backoff), s) =>
    let delay := backoff.delay w.config
    let w := { w with scheduler := s }.clearAlarm (.loop v.generation)
    let w := (s.ticks.filter (·.generation == v.generation)).foldl (fun w t => w.wake (.tick t.id)) w
    let w := w.note (.loopPanicked v.rule.id p backoff.failures delay)
    if delay.nanos = 0 then w.renewLoop v else w.setAlarm (.loop v.generation) (.ofDuration delay)

def turnLoop (w : Simulation) (v : Supervisor) : Simulation :=
  if w.scheduler.isCancelled v.token then w.leaveLoop v.generation
  else
    match v.phase with
    | .looping [] => if w.hasAlarm (.loop v.generation) then w else w.fireTick v.generation v.rule
    | .looping (_ :: _) => w.backOff v
    | .backingOff => if w.hasAlarm (.loop v.generation) then w else w.renewLoop v
    | .leaving => w

end Alerting.Simulation
