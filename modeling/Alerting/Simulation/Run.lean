import Alerting.Proofs.Simulation.Order
import Alerting.Simulation.Round

/-!
# Running a simulation

`Simulation.drain` gives turns to the ready tasks until none is left, and `Simulation.advance` lets time pass from
alarm to alarm. In between, rules are submitted, stopped and restarted; the loops hear of that at their next turn.
A bulk restart waits for its submissions in rounds; what is ready when it ends has its turns later.
-/

namespace Alerting.Simulation

/-! ## Time -/

/-- The most turns at one point in time. A loop that panics at once and is restarted without delay would never
come to an end. -/
def mostTurns : Nat := 1000000

/-- Gives turns to the ready tasks until none is left. -/
def drain (w : Simulation) : Simulation := drainFor mostTurns w

/-- Lets time pass up to `time`; at most `n` alarms ring before it. -/
def advanceTo (time : Nat) : Nat → Simulation → Simulation
  | 0, w => w
  | n + 1, w =>
    let w := w.drain
    match w.nextDue with
    | some due => if due < time then advanceTo time n (w.ring due) else w.ring time
    | none => w.ring time

/-- Lets some time pass. What is due at its end has not had its turn yet. -/
def advance (w : Simulation) (wait : Wait) : Simulation := advanceTo (w.now + wait.ms) wait.ms w

/-! ## All rules -/

/-- Stops all loops, and says how many there were. -/
def stopAll (w : Simulation) : Nat × Simulation :=
  let (rs, s) := w.scheduler.stopAll
  (rs.length, rs.foldl (fun w r => w.tell (some r)) { w with scheduler := s })

theorem ordered_stopAll (w : Simulation) : Ordered .stopAll w w.stopAll.2 :=
  foldl_keeps (P := Ordered .stopAll w) (fun _ r h => h.tell (some r)) w.scheduler.stopAll.1
    (ordered_scheduler w .stopAll)

/-- Makes as many submissions as may be under way. -/
def handOut (w : Simulation) : Simulation :=
  let rules := w.bulk.waiting.take (w.config.maxConcurrentSubmits - w.bulk.underWay)
  let bulk : BulkRestart :=
    { w.bulk with
      waiting := w.bulk.waiting.drop rules.length
      underWay := w.bulk.underWay + rules.length }
  rules.foldl (fun w rule => w.spawn (.submission rule)) { w with bulk := bulk }

theorem foldl_spawn (rules : List Rule) (w : Simulation) :
    rules.foldl (fun w rule => w.spawn (.submission rule)) w =
      { w with ready := w.ready ++ rules.map Task.submission } := by
  induction rules generalizing w with
  | nil => simp
  | cons rule rules ih =>
    rw [List.foldl_cons, ih, List.map_cons, spawn]
    simp

/-- The first of the rules that wait are handed out, as many as may be. -/
theorem handOut_eq (w : Simulation) :
    w.handOut =
      let rules := w.bulk.waiting.take (w.config.maxConcurrentSubmits - w.bulk.underWay)
      { w with
        ready := w.ready ++ rules.map Task.submission
        bulk := { w.bulk with
          waiting := w.bulk.waiting.drop rules.length
          underWay := w.bulk.underWay + rules.length } } :=
  foldl_spawn _ _

/-- Handing out leaves as many submissions to come as before. -/
theorem outstanding_handOut (w : Simulation) : w.handOut.outstanding = w.outstanding := by
  rw [handOut_eq]
  simp only [outstanding, List.length_drop, List.countP_append, List.length_take]
  have hall (rules : List Rule) : (rules.map Task.submission).countP (·.isSubmission) = rules.length := by
    rw [List.countP_map]
    exact List.countP_eq_length.mpr fun _ _ => rfl
  rw [hall, List.length_take]
  omega

/-- Handing out leaves as many tasks before the first submission as before. -/
theorem ahead_handOut (w : Simulation) : w.handOut.ahead = w.ahead := by
  rw [handOut_eq]
  have hfirst (rules : List Rule) : (rules.map Task.submission).findIdx (·.isSubmission) = 0 := by
    cases rules <;> rfl
  have hle := w.ready.findIdx_le_length (p := fun t => t.isSubmission)
  simp only [ahead, List.findIdx_append, hfirst]
  split <;> omega

/-- Makes all submissions, with a round of turns between one lot and the next. Every round brings the end nearer
(`nearer_drainFor`). -/
def submitRounds (w : Simulation) : Simulation :=
  if w.handOut.hasSubmission then submitRounds (drainFor turnsPerRound w.handOut) else w.handOut
termination_by (w.outstanding, w.ahead)
decreasing_by
  next hs =>
  have hnear : Nearer (drainFor turnsPerRound w.handOut) w.handOut := nearer_drainFor 60 hs
  rw [Nearer, outstanding_handOut, ahead_handOut] at hnear
  exact Prod.lex_def.mpr hnear

/-- How many submissions a bulk restart can make at a time. -/
def mostSubmissions : Nat := Nat.pow 2 61 - 1

/-- The panic of a bulk restart that was set to make more submissions at a time than it can. -/
def tooManySubmissions : Panic :=
  .message ("at most " ++ Nat.repr mostSubmissions ++ " submissions can be made at a time")

/-- Restarts the loops of all rules that are switched on, some at a time, and says how many were started. -/
def restartAll (w : Simulation) : Except Failure Nat × Simulation :=
  let (r, e) := w.engine.perform .listRules fun e =>
    (w.store.enabled ++ w.unstored.filter (·.enabled), e)
  let w := { w with engine := e }
  match r with
  | .error error => (.error (.error error), w)
  | .ok rules =>
    if mostSubmissions < w.config.maxConcurrentSubmits then (.error (.panic tooManySubmissions), w)
    else
      let w := submitRounds { w with bulk := ⟨rules, 0, 0⟩ }
      (.ok w.bulk.started, w)

/-! ## The rule store -/

def upsert (w : Simulation) (rule : Rule) : Except EngineError Unit × Simulation :=
  match w.store.upsert rule with
  | .ok store => (.ok (), { w with store := store })
  | .error e => (.error e, w)

/-- Removes a rule from the store, and says whether it was there. -/
def remove (w : Simulation) (rule : String) : Bool × Simulation :=
  let (found, store) := w.store.remove rule
  (found, { w with store := store })

def setEnabled (w : Simulation) (rule : String) (enabled : Bool) : Except EngineError Unit × Simulation :=
  match w.store.setEnabled rule enabled with
  | .ok store => (.ok (), { w with store := store })
  | .error e => (.error e, w)

/-- The simulation with nothing recorded yet. -/
def cleared (w : Simulation) : Simulation :=
  { w with calls := [], engine := { w.engine with writes := [], notices := [] } }

end Alerting.Simulation
