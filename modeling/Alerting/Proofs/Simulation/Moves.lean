import Alerting.Proofs.Engine.Run
import Alerting.Proofs.Scheduler.Registry
import Alerting.Simulation.Run

/-!
# Moves of a simulation

`Move` lists what can happen to a simulation; its tasks have their turns in any order. Every move keeps what ties the
parts of a simulation together (`Sound`): the registry agrees with the supervisors, rules and events stand where they
belong, and an evaluation is one of the rule of its tick, since the store has every rule under its own id.
-/

namespace Alerting.Simulation

/-! ## What can happen to a simulation -/

/-- Something that happens to a simulation. A bulk restart is the turns of its submissions. -/
inductive Move
  | submit (rule : Rule)
  | stop (rule : String)
  | restart (rule : Rule)
  | stopAll
  /-- The rule store is changed. -/
  | edit (e : RuleStore.Edit)
  /-- Datasources, settings and the calls that fail become others. -/
  | world (sources : Sources) (infos : InfoCache) (faults : Nat → Call → Bool)
  /-- Time goes on, and wakes tasks. -/
  | ring (time : Nat)
  /-- A task has its turn, whether it is ready or not. -/
  | turn (t : Task)

/-- The simulation after a move. -/
def move (w : Simulation) : Move → Simulation
  | .submit rule => (w.submit rule).2
  | .stop rule => (w.stop rule).2
  | .restart rule => (w.restart rule).2
  | .stopAll => w.stopAll.2
  | .edit e => { w with store := w.store.edit e }
  | .world sources infos faults =>
    { w with sources := sources, engine := { w.engine with infos := infos, faults := faults } }
  | .ring time => w.ring time
  | .turn t => { w with ready := w.ready.erase t }.turn t

/-! ## What every move keeps -/

/-- The ticks of an evaluation are ticks of its rule. -/
def Follows (s : Scheduler) (v : Evaluation) : Prop :=
  v.tick < s.nextTick ∧ ∀ t ∈ s.ticks, t.id = v.tick → t.rule = v.rule.id

/-- The registry and the supervisors agree, the stored rules and events stand where they belong, and every evaluation is
one of the rule of its tick. -/
structure Sound (w : Simulation) : Prop where
  registry : w.scheduler.Registry
  store : w.store.Sound
  coherent : w.engine.Coherent
  evaluations : ∀ v ∈ w.evaluations, Follows w.scheduler v

section Sound

variable {w w' : Simulation}

theorem Follows.step {l : Scheduler.Label} {s s' : Scheduler} {v : Evaluation} (hst : Scheduler.Step s l s')
    (h : Follows s v) : Follows s' v := by
  refine ⟨Nat.lt_of_lt_of_le h.1 hst.nextTick_le, fun t ht hid => ?_⟩
  rcases hst.tick_cases ht with ⟨u, hu, hu', hrule, -⟩ | ⟨-, -, -, -, -, hnew⟩
  · exact hrule.trans (h.2 u hu (hu'.symm.trans hid))
  · have hlt := h.1
    omega

/-- The actions of a scheduler keep what depends on it. -/
theorem Sound.act (h : w.Sound) {a : Scheduler.Action} (hs : w'.scheduler = w.scheduler.act w.config a)
    (hstore : w'.store = w.store) (hv : w'.evaluations = w.evaluations) (hc : w'.engine.Coherent) : w'.Sound := by
  obtain ⟨hregistry, hfollows⟩ := Scheduler.act_keeps_of
    (P := fun s => s.Registry ∧ ∀ v ∈ w.evaluations, Follows s v) w.config a
    (fun _ hst ⟨hr, hf⟩ => ⟨hr.step hst, fun v hv => (hf v hv).step hst⟩) ⟨h.registry, h.evaluations⟩
  rw [← hs] at hregistry hfollows
  exact ⟨hregistry, by rw [hstore]; exact h.store, hc, by rw [hv]; exact hfollows⟩

theorem Sound.ordered {a : Scheduler.Action} (h : w.Sound) (ho : Ordered a w w') : w'.Sound :=
  h.act ho.scheduler ho.store ho.evaluations (by rw [ho.engine]; exact h.coherent)

theorem Sound.resubmitted {rule : Rule} (h : w.Sound) (hr : Resubmitted rule w w') : w'.Sound := by
  refine h.act (a := .restart rule) hr.scheduler hr.store hr.evaluations ?_
  rcases hr.engine with he | ⟨n, he⟩ <;> rw [he]
  · exact h.coherent
  · exact h.coherent.quiet (.noted _ n)

theorem Sound.change (h : w.Sound) (hc : Change w w') : w'.Sound := by
  cases hc with
  | acted a _ => exact h.act (a := a) rfl rfl rfl h.coherent
  | awoken | alarmed | called | queried => exact ⟨h.registry, h.store, h.coherent, h.evaluations⟩
  | evaluated evaluations hold =>
    refine ⟨h.registry, h.store, h.coherent, fun v hv => ?_⟩
    obtain ⟨u, hu, htick, hrule⟩ := hold v hv
    have hf := h.evaluations u hu
    rw [Follows, htick, hrule]
    exact hf
  | begun t v ht _ hid hr =>
    refine ⟨h.registry, h.store, h.coherent, fun u hu => ?_⟩
    rcases List.mem_append.mp hu with hu | hu
    · exact h.evaluations u hu
    · rw [List.mem_singleton.mp hu]
      refine ⟨by rw [hid]; exact h.registry.numbered.tick_lt t ht, fun t' ht' hid' => ?_⟩
      rw [h.registry.numbered.tick_eq ht' ht (hid'.trans hid)]
      exact (h.store.id_eq hr).symm
  | quiet e hq => exact ⟨h.registry, h.store, h.coherent.quiet hq, h.evaluations⟩

theorem Sound.completed (h : w.Sound) (rule : Rule) (datasource : String) (asked : Instant)
    (reply : Except Failure Answer) : (w.completed rule datasource asked reply).Sound :=
  ⟨h.registry, h.store,
    Engine.complete_keeps (P := Engine.Coherent) Engine.Coherent.quiet (fun ev hc => hc.stored ev) rule datasource asked
      reply h.coherent, h.evaluations⟩

theorem Sound.recovered (h : w.Sound) (v : Evaluation) (report : Report) : (w.recovered v report).Sound :=
  h.act (a := .reconcile v.tick) rfl rfl rfl
    (h.coherent.after w.config (.recover v.rule.scope report.fingerprints report.suppressed w.clock))

/-- Time that goes on wakes tasks, and nothing else. -/
theorem ring_eq (w : Simulation) (time : Nat) : ∃ alarms ready,
    w.ring time = { w with engine := w.engine.atTime time, alarms := alarms, ready := ready } := by
  unfold ring
  cases w.alarms.partition (·.due ≤ time) with
  | mk due later =>
    refine ⟨later, foldl_keeps (f := fun (w : Simulation) (a : Alarm) => w.wake a.task)
      (P := fun w' => ∃ ready, w' = { w with engine := w.engine.atTime time, alarms := later, ready := ready })
      (fun w' a hw' => ?_) due ⟨w.ready, rfl⟩⟩
    obtain ⟨ready, rfl⟩ := hw'
    unfold wake
    split
    · exact ⟨ready, rfl⟩
    · exact ⟨_, rfl⟩

/-- **Every move keeps what every simulation has.** -/
theorem Sound.move (h : w.Sound) (m : Move) : (w.move m).Sound := by
  cases m with
  | submit rule => exact h.ordered (w.ordered_submit rule)
  | stop rule => exact h.ordered (w.ordered_stop rule)
  | restart rule => exact h.ordered (w.ordered_restart rule)
  | stopAll => exact h.ordered w.ordered_stopAll
  | edit e => exact ⟨h.registry, h.store.edit e, h.coherent, h.evaluations⟩
  | world => exact ⟨h.registry, h.store, h.coherent, h.evaluations⟩
  | ring time =>
    obtain ⟨alarms, ready, hw⟩ := w.ring_eq time
    rw [Simulation.move, hw]
    exact ⟨h.registry, h.store, h.coherent.quiet (.waited _ time), h.evaluations⟩
  | turn t =>
    have h₀ : Sound { w with ready := w.ready.erase t } := ⟨h.registry, h.store, h.coherent, h.evaluations⟩
    cases ht : t.isSubmission with
    | false =>
      exact turn_keeps (fun hc h => Sound.change h hc) (fun rule d asked reply h => h.completed rule d asked reply)
        (fun v report _ _ h => h.recovered v report) ht h₀
    | true =>
      cases t with
      | submission rule => exact h₀.resubmitted (resubmitted_turnSubmission _ rule)
      | _ => cases ht

end Sound

/-! ## Runs -/

/-- The simulation after some moves, the first one first. -/
def after (w : Simulation) (moves : List Move) : Simulation := moves.foldl move w

theorem sound_initial (config : Config) (origin : Instant) : Sound (initial config origin) :=
  ⟨Scheduler.registry_initial, RuleStore.sound_empty, fun _ _ _ h => (nomatch h), fun _ h => absurd h List.not_mem_nil⟩

theorem Sound.after {w : Simulation} (h : w.Sound) (moves : List Move) : (w.after moves).Sound := by
  induction moves generalizing w with
  | nil => exact h
  | cons m moves ih => exact ih (h.move m)

end Alerting.Simulation
