import Alerting.Scheduler.Loops
import Alerting.Scheduler.Ticks

/-!
# Runs of a scheduler

`Action` lists what can happen to a scheduler, from outside and from inside; a `run` is any list of actions. A bulk
restart is a `restart` for each of its rules, in any order and with anything in between.

What an action can do is said once, by `Step`: one constructor for each change, with the conditions under which it is
made, under a `Label` that says what kind of change it is. An action makes only steps of its own labels
(`Action.Does`), and what these keep, the action keeps (`act_keeps_of`). Whatever every step keeps holds in every state
that a run reaches (`run_keeps`).
-/

namespace Alerting.Scheduler

/-! ## Actions -/

/-- Something that happens to a scheduler. -/
inductive Action
  | submit (rule : Rule)
  | stop (rule : String)
  | restart (rule : Rule)
  | stopAll
  /-- The interval of a loop is over. -/
  | fire (generation : Nat)
  /-- A tick gets the guard. -/
  | start (tick : Nat)
  | reconcile (tick : Nat)
  | finish (tick : Nat)
  | fail (tick : Nat) (panic : Panic)
  /-- An aborted tick goes away. -/
  | drop (tick : Nat)
  | takePanic (now : Duration) (generation : Nat)
  /-- The delay before the restart of a loop is over. -/
  | renew (generation : Nat)
  | leave (generation : Nat)
  | exit (generation : Nat)
  | forgetGuard (rule : String)

/-- Whether an action is one of supervisors and ticks, and does not come from outside. -/
def Action.isInner : Action → Bool
  | .submit _ | .stop _ | .restart _ | .stopAll => false
  | _ => true

/-- The scheduler after an action. -/
def act (config : Config) (s : Scheduler) : Action → Scheduler
  | .submit rule => (s.submit rule).2
  | .stop rule => (s.stop rule).2
  | .restart rule => (s.restart rule).2
  | .stopAll => s.stopAll.2
  | .fire generation => (s.fire generation).2
  | .start tick => (s.start tick).2
  | .reconcile tick => (s.reconcile tick).2
  | .finish tick => s.finish tick
  | .fail tick panic => s.fail tick panic
  | .drop tick => s.drop tick
  | .takePanic now generation => (s.takePanic config now generation).2
  | .renew generation => (s.renew generation).2
  | .leave generation => s.leave generation
  | .exit generation => s.exit generation
  | .forgetGuard rule => s.forgetGuard rule

/-- The scheduler after some actions, the first one first. -/
def run (config : Config) (actions : List Action) : Scheduler := actions.foldl (act config) initial

/-! ## Steps -/

/-- Registers a loop for a rule and starts its supervisor. -/
def register (s : Scheduler) (rule : Rule) : Scheduler :=
  { (s.guardOf rule.id).2 with
    loops := s.loops.insert rule.id ⟨s.nextToken, s.nextGeneration⟩
    supervisors := s.supervisors ++
      [⟨rule, (s.guardOf rule.id).1, s.nextToken, s.nextGeneration, .fresh, .looping []⟩]
    nextToken := s.nextToken + 1
    nextGeneration := s.nextGeneration + 1 }

/-- Fires a tick of a supervised loop. -/
def launch (s : Scheduler) (v : Supervisor) : Scheduler :=
  { s with
    ticks := s.ticks ++ [⟨s.nextTick, v.rule.tenantId, v.rule.id, v.guard, v.token, v.generation, .waiting, false⟩]
    nextTick := s.nextTick + 1 }

/-- Marks the ticks of a loop that is to be restarted. -/
def abortTicks (s : Scheduler) (generation : Nat) : Scheduler :=
  { s with ticks := s.ticks.map fun t => if t.generation == generation then { t with aborted := true } else t }

/-- Puts a new loop in place of a registered one that has panicked. -/
def replaceLoop (s : Scheduler) (v : Supervisor) (old : Registration) : Scheduler :=
  { s.issue.2 with
    loops := s.loops.insert v.rule.id ⟨s.nextToken, s.nextGeneration⟩
    cancelled := old.token :: s.cancelled }.updateSupervisor v.generation fun u =>
      { u with token := s.nextToken, generation := s.nextGeneration, phase := .looping [] }

/-- What kind of change a step is. -/
inductive Label
  /-- The registry gets a loop for a rule that had none. -/
  | register (rule : String)
  /-- The registry loses loops. -/
  | unregister
  /-- A tick ends. -/
  | endTick
  /-- A supervisor ends. -/
  | exit
  /-- The guard of a rule is forgotten. -/
  | forget (rule : String)
  /-- Everything else that supervisors and ticks do. -/
  | work

/-- One change of a scheduler. -/
inductive Step : Scheduler → Label → Scheduler → Prop
  | idle (s : Scheduler) : Step s .work s
  /-- A submission of a rule that has a loop. -/
  | refused (s : Scheduler) : Step s .work s.issue.2
  | registered (s : Scheduler) (rule : Rule) : rule.validate = .ok () → s.isRunning rule.id = false →
      Step s (.register rule.id) (s.register rule)
  | stopped (s : Scheduler) (rule : String) (r : Registration) : s.loops.get? rule = some r →
      Step s .unregister { s with loops := s.loops.erase rule, cancelled := r.token :: s.cancelled }
  | stoppedAll (s : Scheduler) : Step s .unregister s.stopAll.2
  | launched (s : Scheduler) (v : Supervisor) (panics : List Panic) : v ∈ s.supervisors → v.phase = .looping panics →
      s.hasWaiting v.generation = false → Step s .work (s.launch v)
  | started (s : Scheduler) (t : Tick) : t ∈ s.ticks → t.stage = .waiting → s.holder t.guard = none →
      s.isCancelled t.token = false → Step s .work (s.updateTick t.id fun t => { t with stage := .evaluating })
  | entered (s : Scheduler) (t : Tick) : t ∈ s.ticks → t.stage = .evaluating → s.isCancelled t.token = false →
      Step s .work (s.updateTick t.id fun t => { t with stage := .reconciling })
  | ended (s : Scheduler) (t : Tick) : t ∈ s.ticks → Step s .endTick (s.endTick t.id)
  /-- A loop hears of the panic of a tick. -/
  | heard (s : Scheduler) (generation : Nat) (f : List Panic → List Panic) :
      Step s .work (s.updateSupervisor generation fun v =>
        match v.phase with
        | .looping panics => { v with phase := .looping (f panics) }
        | _ => v)
  | backedOff (s : Scheduler) (v : Supervisor) (panics : List Panic) (backoff : Backoff) : v ∈ s.supervisors →
      v.phase = .looping panics →
      Step s .work
        ((s.updateSupervisor v.generation fun u => { u with backoff := backoff, phase := .backingOff }).abortTicks
          v.generation)
  | replaced (s : Scheduler) (v : Supervisor) (old : Registration) : v ∈ s.supervisors → v.phase = .backingOff →
      s.loops.get? v.rule.id = some old → old.generation = v.generation → Step s .work (s.replaceLoop v old)
  /-- A supervisor gives up a loop that was stopped or is not the registered one. -/
  | letGo (s : Scheduler) (v : Supervisor) : v ∈ s.supervisors →
      (s.isCancelled v.token = true ∨ ∀ r, s.loops.get? v.rule.id = some r → r.generation ≠ v.generation) →
      Step s .work (s.letGo v.generation)
  | exited (s : Scheduler) (v : Supervisor) : v ∈ s.supervisors → v.phase = .leaving →
      Step s .exit { s with supervisors := s.supervisors.filter (·.generation != v.generation) }
  | forgot (s : Scheduler) (rule : String) (guard : Nat) : s.guards.get? rule = some guard →
      s.isRunning rule = false → s.isUsed guard = false →
      Step s (.forget rule) { s with guards := s.guards.erase rule }

/-- The labels of the steps that an action makes. -/
def Action.Does : Action → Label → Prop
  | .submit rule, l => l = .work ∨ l = .register rule.id
  | .stop _, l => l = .unregister
  | .restart rule, l => l = .unregister ∨ l = .work ∨ l = .register rule.id
  | .stopAll, l => l = .unregister
  | .fire _, l => l = .work
  | .start _, l => l = .work ∨ l = .endTick
  | .reconcile _, l => l = .work ∨ l = .endTick
  | .finish _, l => l = .endTick
  | .fail _ _, l => l = .work ∨ l = .endTick
  | .drop _, l => l = .endTick
  | .takePanic _ _, l => l = .work
  | .renew _, l => l = .work
  | .leave _, l => l = .work
  | .exit _, l => l = .exit ∨ ∃ rule, l = .forget rule
  | .forgetGuard rule, l => l = .forget rule

/-- The action submits or restarts a rule. -/
def Action.Submits (a : Action) (rule : String) : Prop := ∃ r : Rule, r.id = rule ∧ (a = .submit r ∨ a = .restart r)

/-- Only a submission or a restart of a rule registers a loop of it. -/
theorem Action.of_does_register {a : Action} {rule : String} (h : a.Does (.register rule)) : a.Submits rule := by
  cases a with
  | submit r | restart r =>
    simp only [Action.Does, Label.register.injEq, reduceCtorEq, false_or] at h
    exact ⟨r, h.symm, by simp⟩
  | _ => simp [Action.Does] at h

/-! ## Actions are steps -/

/-- A submission that starts a loop registers it. -/
theorem submit_eq_register {s : Scheduler} {rule : Rule} (hv : rule.validate = .ok ())
    (hr : s.isRunning rule.id = false) : (s.submit rule).2 = s.register rule := by
  have hr' : s.loops.contains rule.id = false := hr
  simp only [submit, hv, issue, isRunning, hr', Bool.false_eq_true, if_false]
  cases hg : s.guards.get? rule.id <;> simp [register, guardOf, hg]

/-- A submission of a rule that has a loop only uses up numbers. -/
theorem submit_of_running {s : Scheduler} {rule : Rule} (hv : rule.validate = .ok ())
    (hr : s.isRunning rule.id = true) : (s.submit rule).2 = s.issue.2 := by
  have hr' : s.loops.contains rule.id = true := hr
  simp [submit, hv, issue, isRunning, hr']

section Keeps

variable {P : Scheduler → Prop} {s : Scheduler}

theorem submit_keeps (rule : Rule)
    (keeps : ∀ {l s s'}, (Action.submit rule).Does l → Step s l s' → P s → P s') (hs : P s) :
    P (s.submit rule).2 := by
  cases hv : rule.validate with
  | error e => rw [submit_of_invalid hv]; exact hs
  | ok =>
    cases hr : s.isRunning rule.id with
    | true => rw [submit_of_running hv hr]; exact keeps (.inl rfl) (.refused s) hs
    | false => rw [submit_eq_register hv hr]; exact keeps (.inr rfl) (.registered s rule hv hr) hs

theorem stop_keeps (rule : String) (keeps : ∀ {s s'}, Step s .unregister s' → P s → P s') (hs : P s) :
    P (s.stop rule).2 := by
  unfold stop
  split
  · exact hs
  · next r hr => exact keeps (.stopped s rule r hr) hs

theorem fire_keeps (generation : Nat) (keeps : ∀ {s s'}, Step s .work s' → P s → P s') (hs : P s) :
    P (s.fire generation).2 := by
  unfold fire
  split
  · next v hv =>
    obtain ⟨hm, hg⟩ := supervisor?_eq_some hv
    simp only at hg
    subst hg
    split
    · exact hs
    · next hw => exact keeps (.launched s _ _ hm rfl (by simpa using hw)) hs
  · exact hs

theorem takePanic_keeps (config : Config) (now : Duration) (generation : Nat)
    (keeps : ∀ {s s'}, Step s .work s' → P s → P s') (hs : P s) : P (s.takePanic config now generation).2 := by
  unfold takePanic
  split
  · next hv =>
    obtain ⟨hm, hg⟩ := supervisor?_eq_some hv
    simp only at hg
    subst hg
    exact keeps (.backedOff s _ _ _ hm rfl) hs
  · exact hs

theorem renew_keeps (generation : Nat) (keeps : ∀ {s s'}, Step s .work s' → P s → P s') (hs : P s) :
    P (s.renew generation).2 := by
  unfold renew
  split
  · next hv =>
    obtain ⟨hm, hg⟩ := supervisor?_eq_some hv
    simp only at hg
    subst hg
    split
    · next old ho =>
      split
      · next he => exact keeps (.replaced s _ old hm rfl ho (by simpa using he)) hs
      · next he =>
        refine keeps (.letGo s _ hm (.inr fun r hr => ?_)) hs
        rw [ho] at hr
        cases hr
        simpa using he
    · next ho => exact keeps (.letGo s _ hm (.inr fun r hr => by rw [ho] at hr; cases hr)) hs
  · exact hs

theorem leave_keeps (generation : Nat) (keeps : ∀ {s s'}, Step s .work s' → P s → P s') (hs : P s) :
    P (s.leave generation) := by
  unfold leave
  split
  · next v hv =>
    obtain ⟨hm, rfl⟩ := supervisor?_eq_some hv
    split
    · next hc => exact keeps (.letGo s v hm (.inl hc)) hs
    · exact hs
  · exact hs

theorem forgetGuard_keeps (rule : String) (keeps : ∀ {s s'}, Step s (.forget rule) s' → P s → P s') (hs : P s) :
    P (s.forgetGuard rule) := by
  unfold forgetGuard
  split
  · next guard hg =>
    split
    · exact hs
    · next hn =>
      simp only [Bool.or_eq_true, not_or, Bool.not_eq_true] at hn
      exact keeps (.forgot s rule guard hg hn.1 hn.2) hs
  · exact hs

theorem exit_keeps (generation : Nat) (keeps : ∀ {l s s'}, (Action.exit generation).Does l → Step s l s' → P s → P s')
    (hs : P s) : P (s.exit generation) := by
  unfold exit
  split
  · next hv =>
    obtain ⟨hm, hg⟩ := supervisor?_eq_some hv
    simp only at hg
    subst hg
    exact forgetGuard_keeps _ (keeps (.inr ⟨_, rfl⟩)) (keeps (.inl rfl) (.exited s _ hm rfl) hs)
  · exact hs

section Ticks

variable (tick : Nat) (keeps : ∀ {l s s'}, l = .work ∨ l = .endTick → Step s l s' → P s → P s')
include keeps

theorem start_keeps (hs : P s) : P (s.start tick).2 := by
  unfold start
  split
  · next t ht =>
    obtain ⟨hm, rfl⟩ := tick?_eq_some ht
    split
    · next hc =>
      split
      · exact keeps (.inr rfl) (.ended s t hm) hs
      · next hn => exact keeps (.inl rfl) (.started s t hm hc.1 hc.2.2 (by simpa using hn)) hs
    · exact hs
  · exact hs

theorem reconcile_keeps (hs : P s) : P (s.reconcile tick).2 := by
  unfold reconcile
  split
  · next t ht =>
    obtain ⟨hm, rfl⟩ := tick?_eq_some ht
    split
    · next hc =>
      split
      · exact keeps (.inr rfl) (.ended s t hm) hs
      · next hn => exact keeps (.inl rfl) (.entered s t hm hc.1 (by simpa using hn)) hs
    · exact hs
  · exact hs

theorem fail_keeps (p : Panic) (hs : P s) : P (s.fail tick p) := by
  unfold fail
  split
  · next t ht =>
    obtain ⟨hm, rfl⟩ := tick?_eq_some ht
    split
    · exact hs
    · exact keeps (.inl rfl) (.heard _ t.generation (· ++ [p])) (keeps (.inr rfl) (.ended s t hm) hs)
  · exact hs

end Ticks

theorem finish_keeps (tick : Nat) (keeps : ∀ {s s'}, Step s .endTick s' → P s → P s') (hs : P s) :
    P (s.finish tick) := by
  unfold finish
  split
  · next t ht =>
    obtain ⟨hm, rfl⟩ := tick?_eq_some ht
    split
    · exact hs
    · exact keeps (.ended s t hm) hs
  · exact hs

theorem drop_keeps (tick : Nat) (keeps : ∀ {s s'}, Step s .endTick s' → P s → P s') (hs : P s) :
    P (s.drop tick) := by
  unfold drop
  split
  · next t ht =>
    obtain ⟨hm, rfl⟩ := tick?_eq_some ht
    split
    · exact keeps (.ended s t hm) hs
    · exact hs
  · exact hs

/-- **What the steps of an action keep, the action keeps.** -/
theorem act_keeps_of (config : Config) (a : Action)
    (keeps : ∀ {l s s'}, a.Does l → Step s l s' → P s → P s') (hs : P s) : P (s.act config a) := by
  cases a with
  | submit rule => exact submit_keeps rule keeps hs
  | stop rule => exact stop_keeps rule (keeps rfl) hs
  | restart rule =>
    exact submit_keeps rule (fun hl => keeps (.inr hl)) (stop_keeps rule.id (keeps (.inl rfl)) hs)
  | stopAll => exact keeps rfl (.stoppedAll s) hs
  | fire generation => exact fire_keeps generation (keeps rfl) hs
  | start tick => exact start_keeps tick keeps hs
  | reconcile tick => exact reconcile_keeps tick keeps hs
  | finish tick => exact finish_keeps tick (keeps rfl) hs
  | fail tick p => exact fail_keeps tick keeps p hs
  | drop tick => exact drop_keeps tick (keeps rfl) hs
  | takePanic now generation => exact takePanic_keeps config now generation (keeps rfl) hs
  | renew generation => exact renew_keeps generation (keeps rfl) hs
  | leave generation => exact leave_keeps generation (keeps rfl) hs
  | exit generation => exact exit_keeps generation keeps hs
  | forgetGuard rule => exact forgetGuard_keeps rule (keeps rfl) hs

variable (keeps : ∀ {l s s'}, Step s l s' → P s → P s')
include keeps

theorem foldl_act_keeps (config : Config) (actions : List Action) {s : Scheduler} (hs : P s) :
    P (actions.foldl (act config) s) := by
  induction actions generalizing s with
  | nil => exact hs
  | cons a actions ih => exact ih (act_keeps_of config a (fun _ => keeps) hs)

/-- **What holds at the beginning and is kept by every step holds after every run.** -/
theorem run_keeps (config : Config) (actions : List Action) (h0 : P initial) : P (run config actions) :=
  foldl_act_keeps keeps config actions h0

end Keeps

end Alerting.Scheduler
