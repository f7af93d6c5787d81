import Alerting.Simulation.Query

/-!
# Simulated ticks

Tasks take their turns in the order in which they were woken, so that the ticks of a guard ask for it, and get it, in
the order in which they were fired (`Simulation.foremost`).

A tick that has got the guard of its rule loads the rule. It ends if the rule cannot be loaded, is switched off or
is outside its effective time; else it starts a query for every datasource and gathers their completions in the
order in which they come. Then the events of the rule are reconciled, unless the loop was stopped. A panic in a
query ends the tick and aborts its other queries.
-/

namespace Alerting.Simulation

/-- The tick at a guard that was fired first: it has the guard or is the next to get it. -/
def foremost (w : Simulation) (guard : Nat) : Option Tick := w.scheduler.ticks.find? (·.guard == guard)

/-- Wakes the next tick at a guard, if it still waits. -/
def wakeNext (w : Simulation) (guard : Nat) : Simulation :=
  match w.foremost guard with
  | some t => if t.stage = Stage.waiting then w.wake (.tick t.id) else w
  | none => w

/-- Goes on after the end of a tick: the next tick gets the guard, and the loop hears of the end. -/
def afterTick (w : Simulation) (t : Tick) : Simulation := (w.wakeNext t.guard).wake (.loop t.generation)

def finishTick (w : Simulation) (t : Tick) : Simulation :=
  { w with
    scheduler := w.scheduler.finish t.id
    evaluations := w.evaluations.filter (·.tick != t.id) }.afterTick t

/-- Reconciles the events of a rule with the report of its datasources, unless the loop was stopped. -/
def conclude (w : Simulation) (t : Tick) (rule : Rule) (report : Report) : Simulation :=
  let (goes, s) := w.scheduler.reconcile t.id
  let w := { w with scheduler := s }
  if goes then
    let (r, e) := w.engine.recoverTick w.config rule.scope report w.clock
    let w := { w with engine := e }
    match r with
    | .ok _ => w.finishTick t
    | .error error => (w.note (.recoveryAborted t.rule error)).finishTick t
  else w.finishTick t

def failTick (w : Simulation) (t : Tick) (p : Panic) : Simulation :=
  let w := w.abortQueries t.id
  { w with scheduler := w.scheduler.fail t.id p }.afterTick t

/-- Takes in the completions of some queries. -/
def gatherEnded (rule : String) : Gathering → Engine → List (String × Completion) → Engine.Result Gathering
  | g, e, [] => (g, e)
  | g, e, (datasource, c) :: rest =>
    let (g, e) := g.add e rule datasource c
    gatherEnded rule g e rest

/-- Gathers the queries that have ended. -/
def gather (w : Simulation) (t : Tick) (v : Evaluation) : Simulation :=
  let (g, e) := gatherEnded v.rule.id v.gathering w.engine v.ended
  let missing := v.missing - v.ended.length
  let gathered (u : Evaluation) : Evaluation :=
    if u.tick == t.id then { v with gathering := g, missing := missing, ended := [] } else u
  let w := { w with engine := e, evaluations := w.evaluations.map gathered }
  match g.report with
  | .error p => w.failTick t p
  | .ok report => if missing = 0 then w.conclude t v.rule report else w

/-- Starts the queries of a rule. -/
def startQueries (w : Simulation) (t : Tick) (rule : Rule) : Simulation :=
  let queries : List QueryTask := rule.datasourceIds.zipIdx.map fun d => ⟨t.id, d.2, rule, d.1, .fresh, false⟩
  let v : Evaluation := ⟨t.id, rule, .empty, queries.length, []⟩
  let w := { w with queries := w.queries ++ queries, evaluations := w.evaluations ++ [v] }
  (queries.foldl (fun w q => w.spawn (.query q.tick q.index)) w).gather t v

/-- Loads the rule of a tick and starts its evaluation. -/
def evaluate (w : Simulation) (t : Tick) : Simulation :=
  let (r, e) := w.engine.perform (.getRule t.rule) fun e => (w.store.get? t.tenant t.rule, e)
  let w := { w with engine := e }
  match r with
  | .error error => (w.note (.ruleNotLoaded t.rule error)).finishTick t
  | .ok none => w.finishTick t
  | .ok (some rule) =>
    if rule.enabled && rule.isEffectiveAt w.clock then w.startQueries t rule else w.finishTick t

def turnTick (w : Simulation) (t : Tick) : Simulation :=
  if t.aborted then
    let w := w.abortQueries t.id
    { w with scheduler := w.scheduler.drop t.id }.afterTick t
  else
    match t.stage with
    | .waiting =>
      if (w.foremost t.guard).any (·.id == t.id) then
        match w.scheduler.start t.id with
        | (.notYet, _) => w
        | (.stopped, s) => { w with scheduler := s }.afterTick t
        | (.started, s) => { w with scheduler := s }.evaluate t
      else w
    | .evaluating =>
      match w.evaluations.find? (·.tick == t.id) with
      | some v => w.gather t v
      | none => w
    | .reconciling => w

end Alerting.Simulation
