import Alerting.Scheduler.Basic

/-!
# Loops

A rule is submitted, stopped and restarted by its id. Stopping cancels the token of the loop and forgets its
registration; the supervisor leaves later (`Scheduler.leave`, `Scheduler.exit`), and ticks on their way find the
token cancelled.

A loop whose tick panicked is restarted after a delay (`Scheduler.takePanic`, `Scheduler.renew`), with a token
and a generation of its own, unless it was stopped or submitted again in the meantime.
-/

namespace Alerting.Scheduler

/-! ## From outside -/

/-- The guard of a rule; a rule without one gets a new one. -/
def guardOf (s : Scheduler) (rule : String) : Nat × Scheduler :=
  match s.guards.get? rule with
  | some guard => (guard, s)
  | none => (s.nextGuard, { s with guards := s.guards.insert rule s.nextGuard, nextGuard := s.nextGuard + 1 })

/-- Takes the next token and the next generation. -/
def issue (s : Scheduler) : Registration × Scheduler :=
  (⟨s.nextToken, s.nextGeneration⟩,
    { s with nextToken := s.nextToken + 1, nextGeneration := s.nextGeneration + 1 })

/-- Starts the loop of a rule that can be scheduled and has no loop. The answer is the generation of the new
loop. -/
def submit (s : Scheduler) (rule : Rule) : Except EngineError (Option Nat) × Scheduler :=
  match rule.validate with
  | .error e => (.error e, s)
  | .ok () =>
    let (r, s) := s.issue
    if s.isRunning rule.id then (.ok none, s)
    else
      let (guard, s) := s.guardOf rule.id
      (.ok (some r.generation),
        { s with
          loops := s.loops.insert rule.id r
          supervisors := s.supervisors ++ [⟨rule, guard, r.token, r.generation, .fresh, .looping []⟩] })

/-- Stops the loop of a rule. The answer is its registration. -/
def stop (s : Scheduler) (rule : String) : Option Registration × Scheduler :=
  match s.loops.get? rule with
  | none => (none, s)
  | some r => (some r, { s with loops := s.loops.erase rule, cancelled := r.token :: s.cancelled })

/-- Stops the loop of a rule, if there is one, and submits the rule. -/
def restart (s : Scheduler) (rule : Rule) : Except EngineError (Option Nat) × Scheduler :=
  (s.stop rule.id).2.submit rule

/-- Stops all loops. The answer is their registrations. -/
def stopAll (s : Scheduler) : List Registration × Scheduler :=
  (s.loops.values, { s with loops := .empty, cancelled := s.loops.values.map (·.token) ++ s.cancelled })

/-! ### Laws -/

/-- A new guard changes no registration. -/
theorem guardOf_loops (s : Scheduler) (rule : String) : (s.guardOf rule).2.loops = s.loops := by
  unfold guardOf
  split <;> rfl

/-- A rule that cannot be scheduled changes nothing. -/
theorem submit_of_invalid {s : Scheduler} {rule : Rule} {e : EngineError} (h : rule.validate = .error e) :
    s.submit rule = (.error e, s) := by
  simp [submit, h]

/-- A submission registers at most the loop of its rule. -/
theorem get?_loops_submit {s : Scheduler} {rule : Rule} {id : String} (h : id ≠ rule.id) :
    (s.submit rule).2.loops.get? id = s.loops.get? id := by
  unfold submit
  split
  · rfl
  · dsimp only
    split
    · rfl
    · simp [Table.get?_insert, h, guardOf_loops, issue]

/-- A stop forgets one registration and keeps the others. -/
theorem get?_loops_stop (s : Scheduler) (rule id : String) :
    (s.stop rule).2.loops.get? id = if id = rule then none else s.loops.get? id := by
  unfold stop
  split
  · next h =>
    by_cases hid : id = rule
    · rw [if_pos hid, hid]; exact h
    · rw [if_neg hid]
  · exact Table.get?_erase s.loops rule id

/-- The token of a loop that was stopped is cancelled. -/
theorem isCancelled_of_stop {s : Scheduler} {rule : String} {r : Registration} (h : (s.stop rule).1 = some r) :
    (s.stop rule).2.isCancelled r.token = true := by
  unfold stop at h ⊢
  split at h
  · cases h
  · cases h
    simp [isCancelled]

/-- After a stop of all loops none is registered. -/
theorem isRunning_stopAll (s : Scheduler) (rule : String) : s.stopAll.2.isRunning rule = false := by
  simp [stopAll, isRunning, Table.contains]

/-! ## From inside -/

/-- Deals with the earliest panic in a loop: its other ticks are aborted, and the loop waits for its restart. -/
def takePanic (s : Scheduler) (config : Config) (now : Duration) (generation : Nat) :
    Option (Panic × Backoff) × Scheduler :=
  match s.supervisor? generation with
  | some { phase := .looping (p :: _), backoff, .. } =>
    let backoff := backoff.record config now
    let s := s.updateSupervisor generation fun v => { v with backoff := backoff, phase := .backingOff }
    (some (p, backoff),
      { s with ticks := s.ticks.map fun t => if t.generation == generation then { t with aborted := true } else t })
  | _ => (none, s)

def letGo (s : Scheduler) (generation : Nat) : Scheduler :=
  s.updateSupervisor generation fun v => { v with phase := .leaving }

/-- Starts a loop again when its delay is over, if it still is the registered one, and else gives it up. The
answer is the generation of the new loop. -/
def renew (s : Scheduler) (generation : Nat) : Option Nat × Scheduler :=
  match s.supervisor? generation with
  | some { phase := .backingOff, rule, .. } =>
    match s.loops.get? rule.id with
    | some old =>
      if old.generation == generation then
        let (r, s) := s.issue
        let s := { s with loops := s.loops.insert rule.id r, cancelled := old.token :: s.cancelled }
        (some r.generation, s.updateSupervisor generation fun v =>
          { v with token := r.token, generation := r.generation, phase := .looping [] })
      else (none, s.letGo generation)
    | none => (none, s.letGo generation)
  | _ => (none, s)

/-- Ends a loop whose token is cancelled. Its ticks go on without it. -/
def leave (s : Scheduler) (generation : Nat) : Scheduler :=
  match s.supervisor? generation with
  | some v => if s.isCancelled v.token then s.letGo generation else s
  | none => s

/-- Forgets the guard of a rule that has no loop, if nobody has a use for it. -/
def forgetGuard (s : Scheduler) (rule : String) : Scheduler :=
  match s.guards.get? rule with
  | some guard => if s.isRunning rule || s.isUsed guard then s else { s with guards := s.guards.erase rule }
  | none => s

/-- Ends a supervisor that has let go of its guard. -/
def exit (s : Scheduler) (generation : Nat) : Scheduler :=
  match s.supervisor? generation with
  | some { phase := .leaving, rule, .. } =>
    { s with supervisors := s.supervisors.filter (·.generation != generation) }.forgetGuard rule.id
  | _ => s

end Alerting.Scheduler
