import Alerting.Scheduler.Basic

/-!
# Ticks

A loop fires ticks (`Scheduler.fire`). A tick waits for the guard of its rule, evaluates the rule, hands the
results to the recovery and ends. Of the ticks that wait for one guard any can be the next to get it. A tick looks at
the token of its loop twice: before it evaluates (`Scheduler.start`) and before it reconciles (`Scheduler.reconcile`);
a tick of a stopped loop ends there (`of_start_started`, `of_reconcile_true`).

At most one tick of a loop waits; what is fired meanwhile is folded into it. A tick can panic, and its loop hears
of that unless it has ended (`Scheduler.fail`).
-/

namespace Alerting.Scheduler

/-- What comes of a tick that wants to start. -/
inductive Start
  /-- Another tick has the guard. -/
  | notYet
  /-- Its loop was stopped, and the tick has ended. -/
  | stopped
  | started
  deriving DecidableEq

/-- Whether a tick of the loop waits for the guard. -/
def hasWaiting (s : Scheduler) (generation : Nat) : Bool :=
  s.ticks.any fun t => t.generation == generation && t.stage == .waiting

/-- Fires a tick of a loop that runs, unless one of its ticks waits already. The answer is the new tick. -/
def fire (s : Scheduler) (generation : Nat) : Option Nat × Scheduler :=
  match s.supervisor? generation with
  | some { phase := .looping _, rule, guard, token, .. } =>
    if s.hasWaiting generation then (none, s)
    else
      (some s.nextTick,
        { s with
          ticks := s.ticks ++ [⟨s.nextTick, rule.tenantId, rule.id, guard, token, generation, .waiting, false⟩]
          nextTick := s.nextTick + 1 })
  | _ => (none, s)

/-- Starts a tick that waits for a guard that is free, if its loop was not stopped. -/
def start (s : Scheduler) (id : Nat) : Start × Scheduler :=
  match s.tick? id with
  | some t =>
    if t.stage = .waiting ∧ !t.aborted ∧ s.holder t.guard = none then
      if s.isCancelled t.token then (.stopped, s.endTick id)
      else (.started, s.updateTick id fun t => { t with stage := .evaluating })
    else (.notYet, s)
  | none => (.notYet, s)

/-- Goes on to the recovery if the loop was not stopped, and else ends the tick. -/
def reconcile (s : Scheduler) (id : Nat) : Bool × Scheduler :=
  match s.tick? id with
  | some t =>
    if t.stage = .evaluating ∧ !t.aborted then
      if s.isCancelled t.token then (false, s.endTick id)
      else (true, s.updateTick id fun t => { t with stage := .reconciling })
    else (false, s)
  | none => (false, s)

/-- Ends a tick that has started. -/
def finish (s : Scheduler) (id : Nat) : Scheduler :=
  match s.tick? id with
  | some t => if t.stage = .waiting then s else s.endTick id
  | none => s

/-- Ends a tick that has started with a panic, and tells its loop if that still runs. -/
def fail (s : Scheduler) (id : Nat) (p : Panic) : Scheduler :=
  match s.tick? id with
  | some t =>
    if t.stage = .waiting then s
    else (s.endTick id).updateSupervisor t.generation fun v =>
      match v.phase with
      | .looping panics => { v with phase := .looping (panics ++ [p]) }
      | _ => v
  | none => s

def drop (s : Scheduler) (id : Nat) : Scheduler :=
  match s.tick? id with
  | some t => if t.aborted then s.endTick id else s
  | none => s

/-! ## Laws -/

/-- A tick starts only when its guard is free and the token of its loop is not cancelled. -/
theorem of_start_started {s : Scheduler} {id : Nat} (h : (s.start id).1 = .started) :
    ∃ t, s.tick? id = some t ∧ s.holder t.guard = none ∧ s.isCancelled t.token = false := by
  unfold start at h
  split at h
  · next t ht =>
    split at h
    · next hc =>
      split at h
      · cases h
      · next hn => exact ⟨t, ht, hc.2.2, by simpa using hn⟩
    · cases h
  · cases h

/-- A tick goes on to the recovery only while the token of its loop is not cancelled. -/
theorem of_reconcile_true {s : Scheduler} {id : Nat} (h : (s.reconcile id).1 = true) :
    ∃ t, s.tick? id = some t ∧ t.stage = .evaluating ∧ s.isCancelled t.token = false := by
  unfold reconcile at h
  split at h
  · next t ht =>
    split at h
    · next hc =>
      split at h
      · cases h
      · next hn => exact ⟨t, ht, hc.1, by simpa using hn⟩
    · cases h
  · cases h

end Alerting.Scheduler
