import Alerting.Proofs.Recovery.Undisturbed
import Alerting.Proofs.Simulation.Moves

/-!
# Results of stopped loops are discarded

A tick looks at the token of its loop when it starts and before it goes on to the recovery. The token stands for the
registration of the loop (`Scheduler.Tracked`): while it is not cancelled, the loop that fired the tick is the registered
one of its rule. So nothing that an old loop has left behind, be it a tick that waits for its turn or queries that are
under way, starts an evaluation or gets to the recovery after a stop, before the rule is submitted again
(`stopped_rules_rest`).

In a simulation the same is seen in the caches, with the tasks having their turns in any order. After a stop a query
still stores what its datasource answers, and the passes that run are those of other rules; neither disturbs the
recovery of the stopped one (`Engine.Undisturbed`).
-/

namespace Alerting

namespace Scheduler

section Ticks

variable {s : Scheduler} {id : Nat}

/-- The loop of a tick whose token is not cancelled is the registered one of its rule. -/
theorem Registry.registered (h : s.Registry) {t : Tick} (ht : t ∈ s.ticks) (hc : s.isCancelled t.token = false) :
    s.loops.get? t.rule = some t.registration := by
  refine (h.fired t ht).resolve_left fun hcancelled => ?_
  have hfalse : s.isCancelled t.token = true := hcancelled
  rw [hc] at hfalse
  cases hfalse

/-- **A tick starts, and goes on to the recovery, only while its loop is the registered one of its rule.** -/
theorem Registry.registered_of_goes (h : s.Registry) (hgoes : (s.start id).1 = .started ∨ (s.reconcile id).1 = true) :
    ∃ t, s.tick? id = some t ∧ s.loops.get? t.rule = some t.registration := by
  rcases hgoes with hstart | hreconcile
  · obtain ⟨t, ht, -, hc⟩ := of_start_started hstart
    exact ⟨t, ht, h.registered (tick?_eq_some ht).1 hc⟩
  · obtain ⟨t, ht, -, hc⟩ := of_reconcile_true hreconcile
    exact ⟨t, ht, h.registered (tick?_eq_some ht).1 hc⟩

/-- A tick of a rule without a loop neither starts nor goes on to the recovery. -/
theorem Registry.not_goes (h : s.Registry) {t : Tick} (ht : s.tick? id = some t) (hr : s.loops.get? t.rule = none) :
    (s.start id).1 ≠ .started ∧ (s.reconcile id).1 = false := by
  have hrests : ¬((s.start id).1 = .started ∨ (s.reconcile id).1 = true) := by
    intro hgoes
    obtain ⟨u, hu, hloop⟩ := h.registered_of_goes hgoes
    rw [ht] at hu
    cases hu
    rw [hr] at hloop
    cases hloop
  rwa [not_or, Bool.not_eq_true] at hrests

/-- A rule without a loop gets none by an action that does not submit it. -/
theorem unregistered_act {config : Config} {a : Action} {rule : String} (h : s.loops.get? rule = none)
    (ha : ¬a.Submits rule) : (s.act config a).loops.get? rule = none := by
  refine act_keeps_of (P := fun s => s.loops.get? rule = none) config a (fun hl hst h => hst.unregistered ?_ h) h
  rintro rfl
  exact ha (Action.of_does_register hl)

theorem unregistered_foldl {config : Config} {rule : String} (more : List Action) (hmore : ∀ a ∈ more, ¬a.Submits rule)
    {s : Scheduler} (h : s.loops.get? rule = none) : (more.foldl (act config) s).loops.get? rule = none := by
  induction more generalizing s with
  | nil => exact h
  | cons a more ih =>
    exact ih (fun b hb => hmore b (List.mem_cons_of_mem _ hb)) (unregistered_act h (hmore a List.mem_cons_self))

theorem Action.not_submits_of_isInner {a : Action} {rule : String} (h : a.isInner = true) : ¬a.Submits rule := by
  rintro ⟨r, -, rfl | rfl⟩ <;> cases h

theorem Action.submits_submit {r : Rule} {rule : String} : (Action.submit r).Submits rule ↔ r.id = rule := by
  simp [Action.Submits]

theorem Action.submits_restart {r : Rule} {rule : String} : (Action.restart r).Submits rule ↔ r.id = rule := by
  simp [Action.Submits]

/-- The action stops the loop of a rule, or all loops. -/
def Action.Stops (a : Action) (rule : String) : Prop := a = .stop rule ∨ a = .stopAll

theorem unregistered_of_stops {config : Config} {a : Action} {rule : String} (ha : a.Stops rule) :
    (s.act config a).loops.get? rule = none := by
  rcases ha with rfl | rfl
  · exact (s.get?_loops_stop rule rule).trans (if_pos rfl)
  · rfl

end Ticks

end Scheduler

namespace Simulation

/-- The move submits a rule. -/
def Move.Submits (m : Move) (rule : String) : Prop :=
  ∃ r : Rule, r.id = rule ∧ (m = .submit r ∨ m = .restart r ∨ m = .turn (.submission r))

/-- The move stops the loop of a rule, or all loops. -/
def Move.Stops (m : Move) (rule : String) : Prop := m = .stop rule ∨ m = .stopAll

/-! ## Rules at rest -/

/-- A rule without a loop: nothing registers it, none of its evaluations is a new one, and the caches are as `R` says. -/
structure Resting (rule : String) (R : Engine → Prop) (w w' : Simulation) : Prop where
  sound : w'.Sound
  unregistered : w'.scheduler.loops.get? rule = none
  evaluations : ∀ v ∈ w'.evaluations, v.rule.id = rule → ∃ u ∈ w.evaluations, u.tick = v.tick ∧ u.rule = v.rule
  caches : R w'.engine

section Resting

variable {rule : String} {R : Engine → Prop} {w₀ w w' : Simulation}

theorem Resting.refl (h : w.Sound) (hr : w.scheduler.loops.get? rule = none) (hR : R w.engine) : Resting rule R w w :=
  ⟨h, hr, fun v hv _ => ⟨v, hv, rfl, rfl⟩, hR⟩

theorem Resting.mono {R' : Engine → Prop} (h : Resting rule R w w') (hR : R w'.engine → R' w'.engine) :
    Resting rule R' w w' := ⟨h.sound, h.unregistered, h.evaluations, hR h.caches⟩

/-- The rule rests while the scheduler does what does not submit it. -/
theorem Resting.act (h : Resting rule R w₀ w) {a : Scheduler.Action} (ha : ¬a.Submits rule) (hsound : w'.Sound)
    (hs : w'.scheduler = w.scheduler.act w.config a) (hv : w'.evaluations = w.evaluations) (hR : R w'.engine) :
    Resting rule R w₀ w' :=
  ⟨hsound, by rw [hs]; exact Scheduler.unregistered_act h.unregistered ha, by rw [hv]; exact h.evaluations, hR⟩

/-- **The rule rests in every small change.** What begins is an evaluation of a rule whose loop is registered. -/
theorem Resting.change (hR : ∀ {e e' : Engine}, Engine.Quiet e e' → R e → R e') (hc : Change w w')
    (h : Resting rule R w₀ w) : Resting rule R w₀ w' := by
  have hsound := h.sound.change hc
  cases hc with
  | acted a hinner =>
    exact h.act (a := a) (Scheduler.Action.not_submits_of_isInner hinner) hsound rfl rfl h.caches
  | awoken | alarmed | called | queried => exact ⟨hsound, h.unregistered, h.evaluations, h.caches⟩
  | quiet e hq => exact ⟨hsound, h.unregistered, h.evaluations, hR hq h.caches⟩
  | evaluated evaluations hold =>
    refine ⟨hsound, h.unregistered, fun v hv hr => ?_, h.caches⟩
    obtain ⟨u, hu, htick, hrule⟩ := hold v hv
    rw [htick, hrule]
    exact h.evaluations u hu (by rw [← hrule]; exact hr)
  | begun t v ht hactive _ hr =>
    refine ⟨hsound, h.unregistered, fun u hu hrule => ?_, h.caches⟩
    rcases List.mem_append.mp hu with hu | hu
    · exact h.evaluations u hu hrule
    · rw [List.mem_singleton.mp hu] at hrule
      have hloop := h.sound.registry.registered ht hactive
      rw [← h.sound.store.id_eq hr, hrule, h.unregistered] at hloop
      cases hloop

/-- A rule that rests has no part in what its queries, under way since before, still do. -/
theorem Resting.completed {e : Engine} (h : Resting rule (Engine.OnlyDispatched e) w₀ w) (r : Rule) (datasource : String)
    (asked : Instant) (reply : Except Failure Answer) :
    Resting rule (Engine.OnlyDispatched e) w₀ (w.completed r datasource asked reply) :=
  ⟨h.sound.completed r datasource asked reply, h.unregistered, h.evaluations,
    h.caches.trans (Engine.onlyDispatched_complete h.sound.coherent r datasource asked reply)⟩

/-- **The pass of a tick is one of another rule**, for the loop of the tick is registered. -/
theorem Resting.recovered {e : Engine} (h : Resting rule (Engine.Untouched rule e) w₀ w) {v : Evaluation}
    (report : Report) (hv : v ∈ w.evaluations) (hgoes : (w.scheduler.reconcile v.tick).1 = true) :
    Resting rule (Engine.Untouched rule e) w₀ (w.recovered v report) := by
  obtain ⟨t, ht, hloop⟩ := h.sound.registry.registered_of_goes (.inr hgoes)
  obtain ⟨hmem, hid⟩ := Scheduler.tick?_eq_some ht
  have hne : v.rule.scope.rule ≠ rule := by
    rintro rfl
    have hrule : t.rule = v.rule.scope.rule := (h.sound.evaluations v hv).2 t hmem hid
    rw [hrule, h.unregistered] at hloop
    cases hloop
  exact h.act (a := .reconcile v.tick) (Scheduler.Action.not_submits_of_isInner rfl) (h.sound.recovered v report) rfl rfl
    (h.caches.trans (Engine.untouched_recoverTick h.sound.coherent w.config hne report w.clock))

/-- **The rule rests in the turn of every task but its own submission.** -/
theorem resting_turn (h : w.Sound) (hr : w.scheduler.loops.get? rule = none) (t : Task)
    (ht : ∀ r : Rule, t = .submission r → r.id ≠ rule) :
    Resting rule (Engine.Undisturbed rule w.engine) w (w.turn t) := by
  have hdispatched : Resting rule (Engine.OnlyDispatched w.engine) w w := .refl h hr (.refl w.engine)
  have dispatches {w' : Simulation} (h' : Resting rule (Engine.OnlyDispatched w.engine) w w') :
      Resting rule (Engine.Undisturbed rule w.engine) w w' := h'.mono fun hc => hc.undisturbed rule
  cases t with
  | loop generation =>
    simp only [turn]
    split
    · exact dispatches (turnLoop_keeps (Resting.change Engine.OnlyDispatched.quiet) _ hdispatched)
    · exact dispatches hdispatched
  | query tick index =>
    simp only [turn]
    split
    · exact dispatches (turnQuery_keeps (Resting.change Engine.OnlyDispatched.quiet)
        (fun r d asked reply h' => h'.completed r d asked reply) _ hdispatched)
    · exact dispatches hdispatched
  | tick id =>
    simp only [turn]
    split
    · next t hid =>
      obtain rfl := (Scheduler.tick?_eq_some hid).2
      have hothers : Resting rule (Engine.Untouched rule w.engine) w (w.turnTick t) :=
        turnTick_keeps (Resting.change Engine.Untouched.quiet) (fun v report hv hgoes h' => h'.recovered report hv hgoes)
          hid (.refl h hr (.refl rule w.engine))
      exact hothers.mono fun hc => hc.undisturbed
    · exact dispatches hdispatched
  | submission r =>
    have hre := w.resubmitted_turnSubmission r
    have hcaches : Engine.OnlyDispatched w.engine (w.turnSubmission r).engine := by
      rcases hre.engine with he | ⟨n, he⟩ <;> rw [he]
      · exact .refl w.engine
      · exact Engine.OnlyDispatched.quiet (.noted w.engine n) (.refl w.engine)
    have hother : ¬(Scheduler.Action.restart r).Submits rule :=
      fun hs => ht r rfl (Scheduler.Action.submits_restart.mp hs)
    exact dispatches (hdispatched.act hother (h.resubmitted hre) hre.scheduler hre.evaluations hcaches)

theorem resting_ordered {a : Scheduler.Action} (h : w.Sound) (hr : w.scheduler.loops.get? rule = none)
    (ha : ¬a.Submits rule) (ho : Ordered a w w') : Resting rule (Engine.Undisturbed rule w.engine) w w' := by
  have hw : Resting rule (Engine.OnlyDispatched w.engine) w w := .refl h hr (.refl w.engine)
  refine (hw.act ha (h.ordered ho) ho.scheduler ho.evaluations ?_).mono fun hc => hc.undisturbed rule
  exact .of_caches (by rw [ho.engine]) (by rw [ho.engine])

/-- **A rule without a loop rests in every move that does not submit it.** -/
theorem resting_move (h : w.Sound) (hr : w.scheduler.loops.get? rule = none) {m : Move} (hm : ¬m.Submits rule) :
    Resting rule (Engine.Undisturbed rule w.engine) w (w.move m) := by
  have same {w' : Simulation} (hsound : w'.Sound) (hs : w'.scheduler = w.scheduler) (hv : w'.evaluations = w.evaluations)
      (hevents : w'.engine.events = w.engine.events) (hpending : w'.engine.pending = w.engine.pending) :
      Resting rule (Engine.Undisturbed rule w.engine) w w' :=
    ⟨hsound, by rw [hs]; exact hr, fun v h _ => ⟨v, by rwa [hv] at h, rfl, rfl⟩,
      (Engine.OnlyDispatched.of_caches hevents hpending).undisturbed rule⟩
  cases m with
  | submit r =>
    have hother : ¬(Scheduler.Action.submit r).Submits rule :=
      fun hs => hm ⟨r, Scheduler.Action.submits_submit.mp hs, .inl rfl⟩
    exact resting_ordered h hr hother (w.ordered_submit r)
  | stop r => exact resting_ordered h hr (by simp [Scheduler.Action.Submits]) (w.ordered_stop r)
  | restart r =>
    have hother : ¬(Scheduler.Action.restart r).Submits rule :=
      fun hs => hm ⟨r, Scheduler.Action.submits_restart.mp hs, .inr (.inl rfl)⟩
    exact resting_ordered h hr hother (w.ordered_restart r)
  | stopAll => exact resting_ordered h hr (by simp [Scheduler.Action.Submits]) w.ordered_stopAll
  | edit e => exact same (h.move (.edit e)) rfl rfl rfl rfl
  | world sources infos faults => exact same (h.move (.world sources infos faults)) rfl rfl rfl rfl
  | ring time =>
    have hsound := h.move (.ring time)
    obtain ⟨alarms, ready, hw⟩ := w.ring_eq time
    rw [Simulation.move, hw] at hsound ⊢
    exact same hsound rfl rfl rfl rfl
  | turn t =>
    have h₀ : Sound { w with ready := w.ready.erase t } := ⟨h.registry, h.store, h.coherent, h.evaluations⟩
    have hother (r : Rule) (ht : t = .submission r) : r.id ≠ rule := by
      subst ht
      exact fun hid => hm ⟨r, hid, .inr (.inr rfl)⟩
    obtain ⟨hsound, hnone, hold, hcaches⟩ := resting_turn h₀ hr t hother
    exact ⟨hsound, hnone, hold, hcaches⟩

end Resting

/-! ## Runs -/

section Runs

variable {w : Simulation} {rule : String}

theorem unregistered_after (h : w.Sound) (hr : w.scheduler.loops.get? rule = none) (moves : List Move)
    (hmoves : ∀ m ∈ moves, ¬m.Submits rule) : (w.after moves).scheduler.loops.get? rule = none := by
  induction moves generalizing w with
  | nil => exact hr
  | cons m moves ih =>
    exact ih (h.move m) (resting_move h hr (hmoves m List.mem_cons_self)).unregistered
      fun m' hm' => hmoves m' (List.mem_cons_of_mem _ hm')

theorem unregistered_move_of_stops {m : Move} (hm : m.Stops rule) : (w.move m).scheduler.loops.get? rule = none := by
  rcases hm with rfl | rfl
  · rw [move, (w.ordered_stop rule).scheduler]
    exact Scheduler.unregistered_of_stops (.inl rfl)
  · rw [move, w.ordered_stopAll.scheduler]
    exact Scheduler.unregistered_of_stops (.inr rfl)

end Runs

/-- **What a stopped loop has left behind is discarded.** In every run of a scheduler, a tick starts to evaluate, and
goes on to the recovery, only while its loop is the registered one of its rule; so no tick of a rule does either between
a stop and the next submission of the rule. In a simulation, whatever happens between the two begins no evaluation of
the rule and disturbs nothing of its recovery, though queries that were under way still come to their ends. -/
theorem stopped_rules_rest (config : Config) (origin : Instant) :
    (∀ (actions : List Scheduler.Action) (id : Nat),
      ((Scheduler.run config actions).start id).1 = .started ∨ ((Scheduler.run config actions).reconcile id).1 = true →
      ∃ t, (Scheduler.run config actions).tick? id = some t ∧
        (Scheduler.run config actions).loops.get? t.rule = some t.registration) ∧
    (∀ (actions more : List Scheduler.Action) (stop : Scheduler.Action) (rule : String), stop.Stops rule →
      (∀ a ∈ more, ¬a.Submits rule) → ∀ (id : Nat) (t : Tick),
      (Scheduler.run config (actions ++ stop :: more)).tick? id = some t → t.rule = rule →
      ((Scheduler.run config (actions ++ stop :: more)).start id).1 ≠ .started ∧
        ((Scheduler.run config (actions ++ stop :: more)).reconcile id).1 = false) ∧
    ∀ (moves more : List Move) (stop next : Move) (rule : String), stop.Stops rule → (∀ m ∈ more, ¬m.Submits rule) →
      ¬next.Submits rule →
      Resting rule (Engine.Undisturbed rule ((initial config origin).after (moves ++ stop :: more)).engine)
        ((initial config origin).after (moves ++ stop :: more))
        (((initial config origin).after (moves ++ stop :: more)).move next) := by
  refine ⟨fun actions id => (Scheduler.registry_run config actions).registered_of_goes, ?_, ?_⟩
  · intro actions more stop rule hstop hmore id t ht hrule
    refine (Scheduler.registry_run config (actions ++ stop :: more)).not_goes ht ?_
    rw [hrule, Scheduler.run, List.foldl_append, List.foldl_cons]
    exact Scheduler.unregistered_foldl more hmore (Scheduler.unregistered_of_stops hstop)
  · intro moves more stop next rule hstop hmore hnext
    have hbefore : Sound ((initial config origin).after moves) := (sound_initial config origin).after moves
    have hsplit : (initial config origin).after (moves ++ stop :: more) =
        (((initial config origin).after moves).move stop).after more := by
      rw [Simulation.after, List.foldl_append, List.foldl_cons]
      rfl
    rw [hsplit]
    have hstopped := hbefore.move stop
    exact resting_move (hstopped.after more)
      (unregistered_after hstopped (unregistered_move_of_stops hstop) more hmore) hnext

/-- A tick was under way when its loop was stopped. The rule has a new loop, but the results of the tick are dropped. -/
example :
    let s := Scheduler.run .standard
      [.submit .errorCount, .fire 1, .start 0, .stop "r1", .submit .errorCount]
    s.isRunning "r1" = true ∧ (s.tick? 0).map (·.stage) = some .evaluating ∧ (s.reconcile 0).1 = false := by
  decide

end Simulation

end Alerting
