import Alerting.Proofs.Engine.Change
import Alerting.Proofs.Scheduler.Step
import Alerting.Simulation.Turn

/-!
# What turns do to a simulation

A loop, a tick or a query does little things in its turn: supervisors and ticks act, tasks become ready, alarms,
queries and evaluations are set down (`Change`). A query besides works off the answer of its datasource (`completed`),
and a tick whose loop was not stopped has its events reconciled (`recovered`). What all of these keep, the turn of every
task but a submission keeps (`turn_keeps`); for a query or a loop alone, fewer of them matter.
-/

namespace Alerting

/-- A tick that has started is still there, and its token is not cancelled. -/
theorem Scheduler.mem_ticks_start {s : Scheduler} {t : Tick} (ht : s.tick? t.id = some t)
    (h : (s.start t.id).1 = .started) :
    ∃ u ∈ (s.start t.id).2.ticks, u.id = t.id ∧ u.tenant = t.tenant ∧ u.rule = t.rule ∧
      (s.start t.id).2.isCancelled u.token = false := by
  simp only [start, ht] at h ⊢
  split at h
  · next hturn =>
    rw [if_pos hturn]
    split at h
    · cases h
    · next hc =>
      rw [if_neg hc]
      refine ⟨_, List.mem_map_of_mem (tick?_eq_some ht).1, ?_⟩
      have hactive : s.isCancelled t.token = false := by simpa using hc
      split <;> exact ⟨rfl, rfl, rfl, hactive⟩
  · cases h

namespace Simulation

/-- A small change of a simulation that leaves the caches alone. -/
inductive Change (w : Simulation) : Simulation → Prop
  | acted (a : Scheduler.Action) : a.isInner = true → Change w { w with scheduler := w.scheduler.act w.config a }
  | awoken (t : Task) : t.isSubmission = false → Change w (w.spawn t)
  | alarmed (alarms : List Alarm) : Change w { w with alarms := alarms }
  | called (calls : List BackendCall) (traffic : Table Traffic) : Change w { w with calls := calls, traffic := traffic }
  | queried (queries : List QueryTask) : Change w { w with queries := queries }
  /-- Evaluations go on or end. -/
  | evaluated (evaluations : List Evaluation) :
      (∀ v ∈ evaluations, ∃ u ∈ w.evaluations, v.tick = u.tick ∧ v.rule = u.rule) →
      Change w { w with evaluations := evaluations }
  /-- A tick whose loop was not stopped begins to evaluate its rule, as it is stored. -/
  | begun (t : Tick) (v : Evaluation) : t ∈ w.scheduler.ticks → w.scheduler.isCancelled t.token = false →
      v.tick = t.id → w.store.get? t.tenant t.rule = some v.rule →
      Change w { w with evaluations := w.evaluations ++ [v] }
  | quiet (e : Engine) : Engine.Quiet w.engine e → Change w { w with engine := e }

/-- The simulation after the answer of a datasource was worked off. -/
def completed (w : Simulation) (rule : Rule) (datasource : String) (asked : Instant) (reply : Except Failure Answer) :
    Simulation := { w with engine := (w.engine.complete rule datasource asked reply).2 }

/-- The simulation after the tick of an evaluation went on to the recovery. -/
def recovered (w : Simulation) (v : Evaluation) (report : Report) : Simulation :=
  { w with
    scheduler := (w.scheduler.reconcile v.tick).2
    engine := (w.engine.recoverTick w.config v.rule.scope report w.clock).2 }

theorem foldl_keeps {P : Simulation → Prop} {α : Type} {f : Simulation → α → Simulation}
    (hf : ∀ w a, P w → P (f w a)) (l : List α) {w : Simulation} (h : P w) : P (l.foldl f w) := by
  induction l generalizing w with
  | nil => exact h
  | cons a l ih => exact ih (hf w a h)

theorem gatherEnded_keeps {P : Engine → Prop} (keeps : ∀ {e e' : Engine}, Engine.Quiet e e' → P e → P e')
    (rule : String) (ended : List (String × Completion)) (g : Gathering) {e : Engine} (h : P e) :
    P (gatherEnded rule g e ended).2 := by
  induction ended generalizing g e with
  | nil => exact h
  | cons c ended ih => exact ih _ (Engine.add_keeps keeps g rule c.1 c.2 h)

section Keeps

variable {P : Simulation → Prop} (keeps : ∀ {w w' : Simulation}, Change w w' → P w → P w') {w : Simulation}
include keeps

/-! ## Tasks -/

theorem wake_keeps {t : Task} (ht : t.isSubmission = false) (h : P w) : P (w.wake t) := by
  unfold wake
  split
  · exact h
  · exact keeps (.awoken t ht) h

theorem note_keeps (n : Notice) (h : P w) : P (w.note n) := keeps (.quiet _ (.noted _ n)) h

theorem setAlarm_keeps (t : Task) (wait : Wait) (h : P w) : P (w.setAlarm t wait) := keeps (.alarmed _) h

theorem clearAlarm_keeps (t : Task) (h : P w) : P (w.clearAlarm t) := keeps (.alarmed _) h

theorem removeQuery_keeps (q : QueryTask) (h : P w) : P (w.removeQuery q) := keeps (.queried _) h

theorem callBegun_keeps (datasource : String) (request : Request) (h : P w) : P (w.callBegun datasource request) :=
  keeps (.called _ _) h

theorem callOver_keeps (datasource : String) (h : P w) : P (w.callOver datasource) := keeps (.called w.calls _) h

/-- Some of the evaluations are dropped. -/
theorem filterEvaluations_keeps (p : Evaluation → Bool) (h : P w) :
    P { w with evaluations := w.evaluations.filter p } :=
  keeps (.evaluated _ fun v hv => ⟨v, (List.mem_filter.mp hv).1, rfl, rfl⟩) h

theorem abortQueries_keeps (tick : Nat) (h : P w) : P (w.abortQueries tick) := by
  have hq : P { w with queries := w.queries.map fun q => if q.tick == tick then { q with aborted := true } else q } :=
    keeps (.queried _) h
  exact foldl_keeps (fun _ _ h => wake_keeps keeps rfl h) _ (filterEvaluations_keeps keeps (·.tick != tick) hq)

theorem afterTick_keeps (t : Tick) (h : P w) : P (w.afterTick t) := by
  refine wake_keeps keeps rfl ?_
  unfold wakeNext
  split
  · split
    · exact wake_keeps keeps rfl h
    · exact h
  · exact h

theorem finishTick_keeps (t : Tick) (h : P w) : P (w.finishTick t) :=
  afterTick_keeps keeps t (filterEvaluations_keeps keeps (·.tick != t.id) (keeps (.acted (.finish t.id) rfl) h))

theorem failTick_keeps (t : Tick) (p : Panic) (h : P w) : P (w.failTick t p) :=
  afterTick_keeps keeps t (keeps (.acted (.fail t.id p) rfl) (abortQueries_keeps keeps t.id h))

/-! ## Loops -/

theorem leaveLoop_keeps (generation : Nat) (h : P w) : P (w.leaveLoop generation) :=
  clearAlarm_keeps keeps _ (keeps (.acted (.exit generation) rfl) (keeps (.acted (.leave generation) rfl) h))

theorem fireTick_keeps (generation : Nat) (rule : Rule) (h : P w) : P (w.fireTick generation rule) := by
  have hs := keeps (.acted (.fire generation) rfl) h
  unfold fireTick
  dsimp only
  refine setAlarm_keeps keeps _ _ ?_
  split
  · exact keeps (.awoken _ rfl) hs
  · exact hs

theorem renewLoop_keeps (v : Supervisor) (h : P w) : P (w.renewLoop v) := by
  have hs := keeps (.acted (.renew v.generation) rfl) h
  simp only [Scheduler.act] at hs
  unfold renewLoop
  cases hr : w.scheduler.renew v.generation with
  | mk generation s =>
    rw [hr] at hs
    cases generation with
    | none => exact keeps (.acted (.exit v.generation) rfl) hs
    | some generation => exact fireTick_keeps keeps generation v.rule hs

theorem backOff_keeps (v : Supervisor) (h : P w) : P (w.backOff v) := by
  have hs := keeps (.acted (.takePanic (.ofMillis w.now) v.generation) rfl) h
  simp only [Scheduler.act] at hs
  unfold backOff
  cases hp : w.scheduler.takePanic w.config (.ofMillis w.now) v.generation with
  | mk panic s =>
    rw [hp] at hs
    cases panic with
    | none => exact h
    | some panic =>
      dsimp only
      have hnoted := note_keeps keeps (.loopPanicked v.rule.id panic.1 panic.2.failures (panic.2.delay w.config))
        (foldl_keeps (f := fun w (t : Tick) => w.wake (.tick t.id)) (fun _ _ h => wake_keeps keeps rfl h)
          (s.ticks.filter (·.generation == v.generation)) (clearAlarm_keeps keeps (.loop v.generation) hs))
      split
      · exact renewLoop_keeps keeps v hnoted
      · exact setAlarm_keeps keeps _ _ hnoted

theorem turnLoop_keeps (v : Supervisor) (h : P w) : P (w.turnLoop v) := by
  unfold turnLoop
  split
  · exact leaveLoop_keeps keeps _ h
  · split
    · split
      · exact h
      · exact fireTick_keeps keeps _ _ h
    · exact backOff_keeps keeps v h
    · split
      · exact h
      · exact renewLoop_keeps keeps v h
    · exact h

section Queries

variable (completes : ∀ {w : Simulation} (rule : Rule) (datasource : String) (asked : Instant)
  (reply : Except Failure Answer), P w → P (w.completed rule datasource asked reply))
include completes

/-! ## Queries -/

theorem endQuery_keeps (q : QueryTask) (asked : Instant) (reply : Except Failure Answer) (h : P w) :
    P (w.endQuery q asked reply) := by
  have hc : P (w.completed q.rule q.datasource asked reply) := completes q.rule q.datasource asked reply h
  refine wake_keeps keeps rfl (keeps (.evaluated _ ?_) (removeQuery_keeps keeps q hc))
  intro v hv
  obtain ⟨u, hu, rfl⟩ := List.mem_map.mp hv
  refine ⟨u, hu, ?_⟩
  split <;> exact ⟨rfl, rfl⟩

theorem ask_keeps (q : QueryTask) (h : P w) : P (w.ask q) := by
  unfold ask
  dsimp only
  split
  · exact endQuery_keeps keeps completes q _ _ h
  · next request client _ =>
    have hb := callBegun_keeps keeps q.datasource request h
    split
    · exact endQuery_keeps keeps completes q _ _ (callOver_keeps keeps _ hb)
    · split
      · exact endQuery_keeps keeps completes q _ _ (callOver_keeps keeps _ hb)
      · exact setAlarm_keeps keeps _ _ (keeps (.queried _) hb)

theorem turnQuery_keeps (q : QueryTask) (h : P w) : P (w.turnQuery q) := by
  unfold turnQuery
  split
  · split
    · exact removeQuery_keeps keeps q h
    · exact ask_keeps keeps completes q h
  · have hc := clearAlarm_keeps keeps (.query q.tick q.index) (callOver_keeps keeps q.datasource h)
    dsimp only
    split
    · exact removeQuery_keeps keeps q hc
    · split
      · exact endQuery_keeps keeps completes q _ _ hc
      · exact endQuery_keeps keeps completes q _ _ hc

end Queries

section Ticks

variable (recovers : ∀ {w : Simulation} (v : Evaluation) (report : Report), v ∈ w.evaluations →
  (w.scheduler.reconcile v.tick).1 = true → P w → P (w.recovered v report))
include recovers

/-! ## Ticks -/

theorem conclude_keeps {t : Tick} {v : Evaluation} (hv : v ∈ w.evaluations) (ht : v.tick = t.id) (report : Report)
    (h : P w) : P (w.conclude t v.rule report) := by
  unfold conclude
  cases hs : w.scheduler.reconcile t.id with
  | mk goes s =>
    cases goes with
    | false =>
      have hw : P { w with scheduler := s } := by
        have := keeps (.acted (.reconcile t.id) rfl) h
        simpa only [Scheduler.act, hs] using this
      exact finishTick_keeps keeps t hw
    | true =>
      have hw := recovers v report hv (by rw [ht, hs]) h
      rw [recovered, ht, hs] at hw
      simp only [if_true]
      split
      · exact finishTick_keeps keeps t hw
      · exact finishTick_keeps keeps t (note_keeps keeps _ hw)

theorem gather_keeps {t : Tick} {v : Evaluation} (hv : v ∈ w.evaluations) (ht : v.tick = t.id) (h : P w) :
    P (w.gather t v) := by
  unfold gather
  cases hg : gatherEnded v.rule.id v.gathering w.engine v.ended with
  | mk g e =>
    dsimp only
    have he : P { w with engine := e } := by
      have := gatherEnded_keeps (P := fun e => P { w with engine := e }) 
        (fun {e e'} hq h => keeps (w := { w with engine := e }) (.quiet e' hq) h) v.rule.id v.ended v.gathering h
      rwa [hg] at this
    -- the evaluation of the tick goes on as `v'`
    let v' : Evaluation := { v with gathering := g, missing := v.missing - v.ended.length, ended := [] }
    have hmem : v' ∈ w.evaluations.map fun u => if u.tick == t.id then v' else u :=
      List.mem_map.mpr ⟨v, hv, by simp [ht]⟩
    have hw : P { w with engine := e, evaluations := w.evaluations.map fun u => if u.tick == t.id then v' else u } := by
      refine keeps (.evaluated _ ?_) he
      intro u hu
      obtain ⟨old, hold, rfl⟩ := List.mem_map.mp hu
      split
      · exact ⟨v, hv, rfl, rfl⟩
      · exact ⟨old, hold, rfl, rfl⟩
    split
    · exact failTick_keeps keeps t _ hw
    · split
      · exact conclude_keeps keeps recovers (v := v') hmem ht _ hw
      · exact hw

theorem startQueries_keeps {t u : Tick} (hu : u ∈ w.scheduler.ticks) (hc : w.scheduler.isCancelled u.token = false)
    (hid : u.id = t.id) {rule : Rule} (hr : w.store.get? u.tenant u.rule = some rule) (h : P w) :
    P (w.startQueries t rule) := by
  unfold startQueries
  let queries : List QueryTask := rule.datasourceIds.zipIdx.map fun d => ⟨t.id, d.2, rule, d.1, .fresh, false⟩
  let v : Evaluation := ⟨t.id, rule, .empty, queries.length, []⟩
  have hq : P { w with queries := w.queries ++ queries } := keeps (.queried _) h
  have hw : P { w with queries := w.queries ++ queries, evaluations := w.evaluations ++ [v] } :=
    keeps (w := { w with queries := w.queries ++ queries }) (.begun u v hu hc hid.symm hr) hq
  have hspawned := foldl_keeps (P := fun w => P w ∧ v ∈ w.evaluations)
    (f := fun w (q : QueryTask) => w.spawn (.query q.tick q.index)) (fun w q ⟨h, hv⟩ => ⟨keeps (.awoken _ rfl) h, hv⟩)
    queries ⟨hw, List.mem_append_right _ (List.mem_singleton.mpr rfl)⟩
  exact gather_keeps keeps recovers hspawned.2 rfl hspawned.1

theorem evaluate_keeps {t u : Tick} (hu : u ∈ w.scheduler.ticks) (hid : u.id = t.id) (htenant : u.tenant = t.tenant)
    (hrule : u.rule = t.rule) (hactive : w.scheduler.isCancelled u.token = false) (h : P w) : P (w.evaluate t) := by
  have hc : P { w with engine := w.engine.counted } := keeps (.quiet _ (.counted _)) h
  unfold evaluate
  rcases w.engine.perform_cases (.getRule t.rule) fun e => (w.store.get? t.tenant t.rule, e) with ⟨-, hp⟩ | ⟨-, hp⟩ <;>
    rw [hp]
  · exact finishTick_keeps keeps t (note_keeps keeps _ hc)
  · dsimp only
    cases hr : w.store.get? t.tenant t.rule with
    | none => exact finishTick_keeps keeps t hc
    | some rule =>
      dsimp only
      split
      · exact startQueries_keeps keeps recovers (w := { w with engine := w.engine.counted }) hu hactive hid
          (by rw [htenant, hrule]; exact hr) hc
      · exact finishTick_keeps keeps t hc

theorem turnTick_keeps {t : Tick} (ht : w.scheduler.tick? t.id = some t) (h : P w) : P (w.turnTick t) := by
  unfold turnTick
  split
  · exact afterTick_keeps keeps t (keeps (.acted (.drop t.id) rfl) (abortQueries_keeps keeps t.id h))
  · split
    · split
      · have hs := keeps (.acted (.start t.id) rfl) h
        have hstarted := Scheduler.mem_ticks_start ht
        simp only [Scheduler.act] at hs
        cases hst : w.scheduler.start t.id with
        | mk r s =>
          rw [hst] at hs hstarted
          cases r with
          | notYet => exact h
          | stopped => exact afterTick_keeps keeps t hs
          | started =>
            obtain ⟨u, hu, hid, htenant, hrule, hactive⟩ := hstarted rfl
            exact evaluate_keeps keeps recovers (w := { w with scheduler := s }) hu hid htenant hrule hactive hs
      · exact h
    · split
      · next v hv =>
        exact gather_keeps keeps recovers (List.mem_of_find?_eq_some hv) (by simpa using List.find?_some hv) h
      · exact h
    · exact h

end Ticks

/-- **What every small change, the work on an answer and the recovery keep, the turn of a task keeps**, unless the task
is a submission. -/
theorem turn_keeps
    (completes : ∀ {w : Simulation} (rule : Rule) (datasource : String) (asked : Instant)
      (reply : Except Failure Answer), P w → P (w.completed rule datasource asked reply))
    (recovers : ∀ {w : Simulation} (v : Evaluation) (report : Report), v ∈ w.evaluations →
      (w.scheduler.reconcile v.tick).1 = true → P w → P (w.recovered v report))
    {t : Task} (ht : t.isSubmission = false) (h : P w) : P (w.turn t) := by
  cases t with
  | submission => cases ht
  | loop generation =>
    simp only [turn]
    split
    · exact turnLoop_keeps keeps _ h
    · exact h
  | tick id =>
    simp only [turn]
    split
    · next t hid =>
      obtain rfl := (Scheduler.tick?_eq_some hid).2
      exact turnTick_keeps keeps recovers hid h
    · exact h
  | query tick index =>
    simp only [turn]
    split
    · exact turnQuery_keeps keeps completes _ h
    · exact h

end Keeps

/-- **What the actions of supervisors and ticks keep, the turn of a task keeps**, unless the task is a submission. -/
theorem scheduler_turn_keeps {P : Scheduler → Prop}
    (keeps : ∀ {s : Scheduler} {a : Scheduler.Action} (config : Config), a.isInner = true → P s → P (s.act config a))
    {w : Simulation} {t : Task} (ht : t.isSubmission = false) (h : P w.scheduler) : P (w.turn t).scheduler := by
  refine turn_keeps (P := fun w => P w.scheduler) (fun hc h => ?_) (fun _ _ _ _ h => h)
    (fun v _ _ _ h => keeps (a := .reconcile v.tick) .standard rfl h) ht h
  cases hc with
  | acted a ha => exact keeps _ ha h
  | _ => exact h

end Simulation

end Alerting
