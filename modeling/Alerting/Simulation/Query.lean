import Alerting.Simulation.Basic

/-!
# Simulated queries

A query asks its datasource, waits for the answer, works it off and stores its events. If the client takes longer
than the timeout, the query ends without its answer. What the client answers is decided when the wait is over.
-/

namespace Alerting.Simulation

/-- The query of an index on behalf of a tick. -/
def query? (w : Simulation) (tick index : Nat) : Option QueryTask :=
  w.queries.find? fun q => q.tick == tick && q.index == index

def removeQuery (w : Simulation) (q : QueryTask) : Simulation :=
  { w with queries := w.queries.filter fun p => !(p.tick == q.tick && p.index == q.index) }

/-- The time that a query has. -/
def queryLimit (w : Simulation) : Wait := .ofDuration w.config.queryTimeout

/-- Ends a query with what came of it, and wakes its tick. -/
def endQuery (w : Simulation) (q : QueryTask) (asked : Instant) (reply : Except Failure Answer) : Simulation :=
  let (c, e) := w.engine.complete q.rule q.datasource asked reply
  let w := w.removeQuery q
  let hear (v : Evaluation) : Evaluation :=
    if v.tick == q.tick then { v with ended := v.ended ++ [(q.datasource, c)] } else v
  { w with engine := e, evaluations := w.evaluations.map hear }.wake (.tick q.tick)

/-- Ends a query whose call is over without an answer. -/
def endLate (w : Simulation) (q : QueryTask) (asked : Instant) : Simulation :=
  w.endQuery q asked (.error (.error (timedOut q.datasource w.config.queryTimeout)))

def ask (w : Simulation) (q : QueryTask) : Simulation :=
  let now := w.clock
  match w.sources.ask q.rule q.datasource now with
  | .error f => w.endQuery q now (.error f)
  | .ok (request, client) =>
    let w := w.callBegun q.datasource request
    if client.delay.ms = 0 then (w.callOver q.datasource).endQuery q now client.reply
    else if w.queryLimit.ms = 0 then (w.callOver q.datasource).endLate q now
    else
      let asked (p : QueryTask) : QueryTask :=
        if p.tick == q.tick && p.index == q.index then
          { p with stage := .asked client now (client.outlasts w.queryLimit) }
        else p
      { w with queries := w.queries.map asked }.setAlarm (.query q.tick q.index) (min w.queryLimit client.delay)

/-- The present script of the client that was asked. It stays as it was if the client is gone. -/
def clientNow (w : Simulation) (datasource : String) (asked : Client) : Client :=
  match (w.sources.get? datasource).bind (·.client) with
  | some present => asked.turnedInto present
  | none => asked

def turnQuery (w : Simulation) (q : QueryTask) : Simulation :=
  match q.stage with
  | .fresh => if q.aborted then w.removeQuery q else w.ask q
  | .asked client asked late =>
    let w := (w.callOver q.datasource).clearAlarm (.query q.tick q.index)
    if q.aborted then w.removeQuery q
    else if late then w.endLate q asked
    else w.endQuery q asked (w.clientNow q.datasource client).reply

def abortQueries (w : Simulation) (tick : Nat) : Simulation :=
  let abort (q : QueryTask) : QueryTask := if q.tick == tick then { q with aborted := true } else q
  (w.queries.filter (·.tick == tick)).foldl (fun w q => w.wake (.query q.tick q.index))
    { w with queries := w.queries.map abort, evaluations := w.evaluations.filter (·.tick != tick) }

end Alerting.Simulation
