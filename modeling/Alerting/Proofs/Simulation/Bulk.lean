import Alerting.Proofs.Engine.Run
import Alerting.Proofs.Scheduler.Restart
import Alerting.Simulation.Run
import Mathlib.Logic.Relation

/-!
# Bulk restarts

A bulk restart hands out submissions as long as fewer are under way than may be, and every ready task can have the next
turn (`BulkStep`). Whatever the order, each rule of the list either waits, has a ready submission or has had its turn
(`Accounted.split`), and what restarts, supervisors and ticks keep holds of the scheduler all the time
(`Accounted.run_keeps`). The turns that `Simulation.restartAll` gives are one such order, and they come to an end from
every point that another order has reached (`submitRounds_spec`).

If all rules of the list can be scheduled, all have been restarted when none waits and none is ready, and the registry is
as `Restarted` says (`Underway`). Only a limit beyond `mostSubmissions` keeps a bulk restart from that, although it passes
the check of the configuration (`bulk_restart`, `limit_passes_and_panics`).
-/

namespace Alerting

/-- The rule that a submission is about. -/
def Task.submission? : Task → Option Rule
  | .submission rule => some rule
  | _ => none

theorem Task.submission?_eq_none {t : Task} : t.submission? = none ↔ t.isSubmission = false := by
  cases t <;> simp [submission?, isSubmission]

theorem Config.maxConcurrentSubmits_pos {c : Config} (h : c.validate = .ok ()) : 0 < c.maxConcurrentSubmits := by
  refine Nat.pos_of_ne_zero fun h0 => ?_
  rw [validate, if_pos h0] at h
  cases h

namespace Simulation

/-! ## Orders of turns -/

/-- A bulk restart hands out a submission, or some ready task has its turn. -/
inductive BulkStep (w : Simulation) : Simulation → Prop
  | handed (rule : Rule) (rest : List Rule) : w.bulk.waiting = rule :: rest →
      w.bulk.underWay < w.config.maxConcurrentSubmits →
      BulkStep w ({ w with bulk := { w.bulk with waiting := rest, underWay := w.bulk.underWay + 1 } }.spawn
        (.submission rule))
  | turned (before : List Task) (t : Task) (after : List Task) : w.ready = before ++ t :: after →
      BulkStep w ({ w with ready := before ++ after }.turn t)

/-- What a bulk restart can come to, in any order of turns. -/
abbrev BulkRun : Simulation → Simulation → Prop := Relation.ReflTransGen BulkStep

/-- All submissions of the bulk restart have had their turn. -/
structure Through (w : Simulation) : Prop where
  waiting : w.bulk.waiting = []
  underWay : w.bulk.underWay = 0

/-- The rules whose submissions are ready. -/
def submitted (w : Simulation) : List Rule := w.ready.filterMap Task.submission?

/-- The account of a bulk restart of some rules: every rule waits, has a ready submission or has had its turn, and those
that have had it count as started if they can be scheduled. -/
structure Accounted (config : Config) (rules : List Rule) (w : Simulation) (done : List Rule) : Prop where
  split : (done ++ (w.submitted ++ w.bulk.waiting)).Perm rules
  started : w.bulk.started = done.countP (·.validate.isOk)
  underWay : w.bulk.underWay = w.submitted.length
  config : w.config = config

/-- The state of a bulk restart of some rules: every rule waits, has a ready submission or has been restarted. -/
structure Underway (s₀ : Scheduler) (config : Config) (rules : List Rule) (w : Simulation) (done : List Rule) : Prop where
  restarting : Scheduler.Restarting s₀ w.scheduler done
  split : (done ++ (w.submitted ++ w.bulk.waiting)).Perm rules
  started : w.bulk.started = done.length
  underWay : w.bulk.underWay = w.submitted.length
  config : w.config = config

section Turns

variable {w w' : Simulation} {s₀ : Scheduler} {config : Config} {rules done : List Rule}

theorem submitted_of_appends (h : Appends w w') : w'.submitted = w.submitted := by
  obtain ⟨new, hr, hnew⟩ := h
  have h0 : new.filterMap Task.submission? = [] :=
    List.filterMap_eq_nil_iff.mpr fun t ht => Task.submission?_eq_none.mpr (hnew t ht)
  rw [submitted, hr, List.filterMap_append, h0, List.append_nil]
  rfl

/-- A restart fails exactly if its rule cannot be scheduled, and else starts a loop. -/
theorem restart_fst (w : Simulation) (rule : Rule) : (w.restart rule).1 = rule.validate.map fun _ => true := by
  have hs : (w.stop rule.id).2.scheduler.submit rule = w.scheduler.restart rule := by
    rw [(ordered_stop w rule.id).scheduler]
    rfl
  cases hv : rule.validate with
  | error e => simp only [restart, submit, hs, Scheduler.restart_of_invalid _ hv, Except.map]
  | ok => simp only [restart, submit, hs, Scheduler.restart_eq_register _ hv, Except.map]

/-- A submission whose turn is over is no longer under way, and counts as a loop that was started or is reported. -/
theorem counted_turnSubmission (w : Simulation) (rule : Rule) :
    (w.turnSubmission rule).bulk =
        { w.bulk with
          underWay := w.bulk.underWay - 1
          started := w.bulk.started + if rule.validate.isOk then 1 else 0 } ∧
      (w.turnSubmission rule).engine =
        match rule.validate with
        | .ok _ => w.engine
        | .error e => w.engine.note (.submitFailed rule.id e) := by
  let w₀ : Simulation := { w with bulk := { w.bulk with underWay := w.bulk.underWay - 1 } }
  have hbulk := (ordered_restart w₀ rule).bulk
  have hengine := (ordered_restart w₀ rule).engine
  have hfst := restart_fst w₀ rule
  unfold turnSubmission
  cases hr : w₀.restart rule with
  | mk result w₁ =>
    rw [hr] at hbulk hengine hfst
    cases hv : rule.validate with
    | error e =>
      rw [hv] at hfst
      obtain rfl : result = .error e := hfst
      exact ⟨hbulk, congrArg (Engine.note · (.submitFailed rule.id e)) hengine⟩
    | ok =>
      rw [hv] at hfst
      obtain rfl : result = .ok true := hfst
      exact ⟨congrArg (fun bulk : BulkRestart => { bulk with started := bulk.started + 1 }) hbulk, hengine⟩

/-- A ready task other than a submission has its turn. -/
theorem Accounted.turn_other (h : Accounted config rules w done) {before after : List Task} {t : Task}
    (hr : w.ready = before ++ t :: after) (ht : t.isSubmission = false) :
    Accounted config rules ({ w with ready := before ++ after }.turn t) done := by
  have hleft := left_turn { w with ready := before ++ after } ht
  have hsub : submitted { w with ready := before ++ after } = w.submitted := by
    simp [submitted, hr, Task.submission?_eq_none.mpr ht]
  have hsame : ({ w with ready := before ++ after }.turn t).submitted = w.submitted :=
    (submitted_of_appends hleft.appends).trans hsub
  refine ⟨?_, ?_, ?_, hleft.config.trans h.config⟩
  · rw [hsame, hleft.bulk]
    exact h.split
  · rw [hleft.bulk]
    exact h.started
  · rw [hsame, hleft.bulk]
    exact h.underWay

/-- A ready submission has its turn. -/
theorem Accounted.turn_submission (h : Accounted config rules w done) {before after : List Task} {rule : Rule}
    (hr : w.ready = before ++ .submission rule :: after) :
    Accounted config rules ({ w with ready := before ++ after }.turn (.submission rule)) (rule :: done) := by
  have hsubmitted := resubmitted_turnSubmission { w with ready := before ++ after } rule
  have hbulk := (counted_turnSubmission { w with ready := before ++ after } rule).1
  -- the rule moves from the submitted ones to those that are done
  have hsub : w.submitted.Perm (rule :: submitted { w with ready := before ++ after }) := by
    simp only [submitted, hr, List.filterMap_append, List.filterMap_cons, Task.submission?]
    exact List.perm_middle
  have hsame := submitted_of_appends hsubmitted.appends
  refine ⟨?_, ?_, ?_, hsubmitted.config.trans h.config⟩
  · rw [turn, hbulk, hsame]
    refine List.Perm.trans ?_ h.split
    refine (List.perm_middle (a := rule)).symm.trans (List.Perm.append_left done ?_)
    exact (List.Perm.append_right w.bulk.waiting hsub).symm
  · rw [turn, hbulk, List.countP_cons, ← h.started]
  · rw [turn, hbulk, hsame]
    have hlength := hsub.length_eq
    have hunderWay := h.underWay
    simp only [List.length_cons] at hlength ⊢
    omega

theorem Accounted.hand (h : Accounted config rules w done) {rule : Rule} {rest : List Rule}
    (hw : w.bulk.waiting = rule :: rest) :
    Accounted config rules ({ w with bulk := { w.bulk with waiting := rest, underWay := w.bulk.underWay + 1 } }.spawn
      (.submission rule)) done := by
  have hsub : submitted ({ w with bulk := { w.bulk with waiting := rest, underWay := w.bulk.underWay + 1 } }.spawn
      (.submission rule)) = w.submitted ++ [rule] := by
    simp [submitted, spawn, Task.submission?]
  refine ⟨?_, h.started, ?_, h.config⟩
  · rw [hsub, List.append_assoc]
    have := h.split
    rwa [hw] at this
  · rw [hsub, List.length_append, ← h.underWay]
    rfl

/-- **Every step of a bulk restart keeps account of all rules**, and keeps what restarts, supervisors and ticks keep. -/
theorem Accounted.step_keeps {P : Scheduler → List Rule → Prop}
    (acts : ∀ {s done a} (config : Config), a.isInner = true → P s done → P (s.act config a) done)
    (restarts : ∀ {s done rule}, rule ∈ rules → P s done → P (s.restart rule).2 (rule :: done))
    (h : Accounted config rules w done) (hP : P w.scheduler done) (hst : BulkStep w w') :
    ∃ done', Accounted config rules w' done' ∧ P w'.scheduler done' := by
  cases hst with
  | handed rule rest hw _ => exact ⟨done, h.hand hw, hP⟩
  | turned before t after hr =>
    cases ht : t.submission? with
    | none =>
      have ht' := Task.submission?_eq_none.mp ht
      exact ⟨done, h.turn_other hr ht', scheduler_turn_keeps (P := (P · done)) acts ht' hP⟩
    | some rule =>
      obtain rfl : t = .submission rule := by
        cases t <;> simp_all [Task.submission?]
      have hmem : rule ∈ rules := by
        refine h.split.mem_iff.mp (List.mem_append_right _ (List.mem_append_left _ ?_))
        exact List.mem_filterMap.mpr ⟨.submission rule, by simp [hr], rfl⟩
      refine ⟨rule :: done, h.turn_submission hr, ?_⟩
      rw [turn, (resubmitted_turnSubmission { w with ready := before ++ after } rule).scheduler]
      exact restarts hmem hP

theorem Accounted.run_keeps {P : Scheduler → List Rule → Prop}
    (acts : ∀ {s done a} (config : Config), a.isInner = true → P s done → P (s.act config a) done)
    (restarts : ∀ {s done rule}, rule ∈ rules → P s done → P (s.restart rule).2 (rule :: done))
    (h : Accounted config rules w done) (hP : P w.scheduler done) (hrun : BulkRun w w') :
    ∃ done', Accounted config rules w' done' ∧ P w'.scheduler done' := by
  induction hrun with
  | refl => exact ⟨done, h, hP⟩
  | tail _ hst ih =>
    obtain ⟨done', h', hP'⟩ := ih
    exact h'.step_keeps acts restarts hP' hst

theorem Accounted.run (h : Accounted config rules w done) (hrun : BulkRun w w') :
    ∃ done', Accounted config rules w' done' := by
  obtain ⟨done', h', -⟩ := h.run_keeps (P := fun _ _ => True) (fun _ _ _ => trivial) (fun _ _ => trivial) trivial hrun
  exact ⟨done', h'⟩

/-- When all submissions are through, all rules have had their turn. -/
theorem Accounted.perm_of_through (h : Accounted config rules w done) (ht : w.Through) : done.Perm rules := by
  have hnone : w.submitted = [] := List.eq_nil_of_length_eq_zero (h.underWay.symm.trans ht.underWay)
  have := h.split
  rwa [hnone, ht.waiting, List.append_nil, List.append_nil] at this

theorem Accounted.countP_done (h : Accounted config rules w done) (hvalid : ∀ rule ∈ rules, rule.validate = .ok ()) :
    done.countP (·.validate.isOk) = done.length := by
  refine List.countP_eq_length.mpr fun rule hrule => ?_
  rw [hvalid rule (h.split.mem_iff.mp (List.mem_append_left _ hrule))]
  rfl

/-- **If all rules can be scheduled, those that have had their turns have been restarted.** -/
theorem Accounted.underway (h : Accounted config rules w done) (hvalid : ∀ rule ∈ rules, rule.validate = .ok ())
    (hs : Scheduler.Restarting s₀ w.scheduler done) : Underway s₀ config rules w done :=
  ⟨hs, h.split, h.started.trans (h.countP_done hvalid), h.underWay, h.config⟩

end Turns

/-! ## The order of `restartAll` -/

/-- As many rules are handed out as wait and as may be. -/
theorem bulkRun_take (n : Nat) (w : Simulation) (hn : n ≤ w.bulk.waiting.length)
    (hmost : n ≤ w.config.maxConcurrentSubmits - w.bulk.underWay) :
    BulkRun w { w with
      ready := w.ready ++ (w.bulk.waiting.take n).map Task.submission
      bulk := { w.bulk with waiting := w.bulk.waiting.drop n, underWay := w.bulk.underWay + n } } := by
  induction n generalizing w with
  | zero => simpa using Relation.ReflTransGen.refl
  | succ n ih =>
    cases hw : w.bulk.waiting with
    | nil => simp [hw] at hn
    | cons rule rest =>
      let w₁ := { w with bulk := { w.bulk with waiting := rest, underWay := w.bulk.underWay + 1 } }.spawn
        (.submission rule)
      have hfirst : BulkRun w w₁ := .single (.handed rule rest hw (by omega))
      have hlength : n ≤ w₁.bulk.waiting.length := by
        rw [hw, List.length_cons] at hn
        exact Nat.le_of_succ_le_succ hn
      have hleft : n ≤ w₁.config.maxConcurrentSubmits - w₁.bulk.underWay := by
        show n ≤ w.config.maxConcurrentSubmits - (w.bulk.underWay + 1)
        omega
      have hrest := ih w₁ hlength hleft
      refine hfirst.trans ?_
      simpa [w₁, spawn, Nat.add_assoc, Nat.add_comm 1 n] using hrest

theorem bulkRun_handOut (w : Simulation) : BulkRun w w.handOut := by
  let k := w.config.maxConcurrentSubmits - w.bulk.underWay
  have hlength : (w.bulk.waiting.take k).length = min k w.bulk.waiting.length := List.length_take
  have htake : w.bulk.waiting.take (w.bulk.waiting.take k).length = w.bulk.waiting.take k := by
    rw [hlength, List.take_eq_take_iff]
    omega
  have h := bulkRun_take (w.bulk.waiting.take k).length w (by omega) (by omega)
  rw [htake] at h
  rw [handOut_eq]
  exact h

theorem bulkRun_drainFor (n : Nat) (w : Simulation) : BulkRun w (drainFor n w) := by
  induction n generalizing w with
  | zero => exact .refl
  | succ n ih =>
    rw [drainFor]
    split
    · exact .refl
    · next t rest hr => exact .head (.turned [] t rest hr) (ih _)

section Rounds

variable {w : Simulation} {config : Config} {rules done : List Rule}

/-- When nothing more can be handed out and no submission is ready, all are through. -/
theorem Accounted.through_handOut (h : Accounted config rules w.handOut done)
    (hmax : 0 < config.maxConcurrentSubmits) (hs : w.handOut.hasSubmission = false) : w.handOut.Through := by
  have hnone : w.handOut.submitted = [] := by
    refine List.filterMap_eq_nil_iff.mpr fun t ht => Task.submission?_eq_none.mpr ?_
    simpa using List.any_eq_false.mp hs t ht
  have hunderWay : w.handOut.bulk.underWay = 0 := by rw [h.underWay, hnone]; rfl
  have hconfig : w.config = config := by
    have := h.config
    rwa [handOut_eq] at this
  refine ⟨?_, hunderWay⟩
  rw [handOut_eq] at hunderWay ⊢
  simp only [List.length_take] at hunderWay ⊢
  refine List.drop_eq_nil_iff.mpr ?_
  rw [hconfig] at hunderWay ⊢
  omega

/-- **The rounds of a bulk restart are one order of its turns, and bring all submissions through.** -/
theorem submitRounds_spec (hmax : 0 < config.maxConcurrentSubmits) (h : Accounted config rules w done) :
    BulkRun w w.submitRounds ∧ w.submitRounds.Through := by
  induction w using submitRounds.induct generalizing done with
  | case1 w hs ih =>
    have hround : BulkRun w (drainFor turnsPerRound w.handOut) :=
      (bulkRun_handOut w).trans (bulkRun_drainFor turnsPerRound w.handOut)
    obtain ⟨done', h'⟩ := h.run hround
    obtain ⟨hrun, hthrough⟩ := ih h'
    rw [submitRounds, if_pos hs]
    exact ⟨hround.trans hrun, hthrough⟩
  | case2 w hs =>
    obtain ⟨done', h'⟩ := h.run (bulkRun_handOut w)
    rw [submitRounds, if_neg hs]
    exact ⟨bulkRun_handOut w, h'.through_handOut hmax (by simpa using hs)⟩

end Rounds

/-! ## The whole bulk restart -/

/-- The bulk restart of some rules begins: they have been listed, and all of them wait. -/
def listed (w : Simulation) (rules : List Rule) : Simulation :=
  { w with engine := w.engine.counted, bulk := ⟨rules, 0, 0⟩ }

/-- A bulk restart restarts all rules that are switched on, and says how many there are, whatever the order in which
they are listed and in which the ready tasks have their turns. -/
structure RestartsAll (w : Simulation) : Prop where
  returned : w.restartAll.1 = .ok w.store.enabled.length
  ownOrder : BulkRun (w.listed w.store.enabled) w.restartAll.2 ∧ w.restartAll.2.Through
  anyOrder : ∀ rules w', rules.Perm w.store.enabled → BulkRun (w.listed rules) w' → w'.Through →
    w'.bulk.started = w.store.enabled.length ∧ Scheduler.Restarted w.scheduler w'.scheduler w.store.enabled
  neverStuck : ∀ rules w', rules.Perm w.store.enabled → BulkRun (w.listed rules) w' →
    ∃ w'', BulkRun w' w'' ∧ w''.Through

section Whole

variable {w : Simulation}

/-- The rules that are switched on, as a rule store lists them. -/
def enabled (w : Simulation) : List Rule := w.store.enabled ++ w.unstored.filter (·.enabled)

theorem restartAll_eq (hlist : w.engine.fails .listRules = false) :
    w.restartAll =
      if mostSubmissions < w.config.maxConcurrentSubmits then
        (.error (.panic tooManySubmissions), { w with engine := w.engine.counted })
      else
        (.ok (w.listed w.enabled).submitRounds.bulk.started, (w.listed w.enabled).submitRounds) := by
  have hperform : w.engine.perform .listRules (fun e => (w.enabled, e)) = (.ok w.enabled, w.engine.counted) := by
    simp [Engine.perform, hlist]
  unfold restartAll
  rw [← enabled, hperform]
  rfl

theorem enabled_eq (hunstored : w.unstored = []) : w.enabled = w.store.enabled := by
  rw [enabled, hunstored, List.filter_nil, List.append_nil]

theorem accounted_listed (hready : ∀ t ∈ w.ready, t.isSubmission = false) (rules : List Rule) :
    Accounted w.config rules (w.listed rules) [] := by
  have hnone : (w.listed rules).submitted = [] :=
    List.filterMap_eq_nil_iff.mpr fun t ht => Task.submission?_eq_none.mpr (hready t ht)
  refine ⟨?_, rfl, ?_, rfl⟩
  · rw [hnone]
    exact .refl _
  · rw [hnone]
    rfl

/-- The order of `restartAll` brings all submissions through, whatever the rules. -/
theorem restartAll_spec (hlist : w.engine.fails .listRules = false) (hready : ∀ t ∈ w.ready, t.isSubmission = false)
    (hmax : 0 < w.config.maxConcurrentSubmits) (hmost : w.config.maxConcurrentSubmits ≤ mostSubmissions) :
    w.restartAll.1 = .ok w.restartAll.2.bulk.started ∧ BulkRun (w.listed w.enabled) w.restartAll.2 ∧
      w.restartAll.2.Through := by
  rw [restartAll_eq hlist, if_neg (by omega)]
  exact ⟨rfl, submitRounds_spec hmax (accounted_listed hready w.enabled)⟩

theorem restartsAll (hregistry : w.scheduler.Registry) (hstore : w.store.Sound) (hunstored : w.unstored = [])
    (hlist : w.engine.fails .listRules = false) (hready : ∀ t ∈ w.ready, t.isSubmission = false)
    (hmax : 0 < w.config.maxConcurrentSubmits) (hmost : w.config.maxConcurrentSubmits ≤ mostSubmissions) :
    w.RestartsAll := by
  have hvalid : ∀ {rules : List Rule}, rules.Perm w.store.enabled → ∀ rule ∈ rules, rule.validate = .ok () :=
    fun hperm rule hrule => hstore.validate_of_mem_enabled (hperm.mem_iff.mp hrule)
  have horder : ∀ rules w', rules.Perm w.store.enabled → BulkRun (w.listed rules) w' → w'.Through →
      w'.bulk.started = w.store.enabled.length ∧ Scheduler.Restarted w.scheduler w'.scheduler w.store.enabled := by
    intro rules w' hperm hrun hthrough
    obtain ⟨done, hacc, hrestarting⟩ := (accounted_listed hready rules).run_keeps
      (P := Scheduler.Restarting w.scheduler) (fun config ha h => h.inner config ha)
      (fun hrule h => h.restart (hvalid hperm _ hrule)) hregistry.restarting hrun
    have h := hacc.underway (hvalid hperm) hrestarting
    have hdone : done.Perm w.store.enabled := (hacc.perm_of_through hthrough).trans hperm
    exact ⟨h.started.trans hdone.length_eq, h.restarting.restarted hregistry hdone⟩
  obtain ⟨hreturned, hown⟩ := restartAll_spec hlist hready hmax hmost
  rw [enabled_eq hunstored] at hown
  have hstarted := (horder w.store.enabled _ (.refl _) hown.1 hown.2).1
  refine ⟨?_, hown, horder, ?_⟩
  · rw [hreturned, hstarted]
  · intro rules w' hperm hrun
    obtain ⟨done, h⟩ := (accounted_listed hready rules).run hrun
    exact ⟨w'.submitRounds, submitRounds_spec hmax h⟩

end Whole

/-- **A bulk restart leaves one young loop for every rule that is switched on**, in every state that a scheduler and a
rule store can reach, as long as its limit is one that it can keep; beyond that it panics. After a stop of all loops the
rules that are switched on are the only ones with a loop. -/
theorem bulk_restart {config : Config} {actions : List Scheduler.Action} {edits : List RuleStore.Edit} {w : Simulation}
    (hscheduler : w.scheduler = Scheduler.run config actions) (hstore : w.store = RuleStore.run edits)
    (hconfig : w.config.validate = .ok ()) (hunstored : w.unstored = []) (hlist : w.engine.fails .listRules = false)
    (hready : ∀ t ∈ w.ready, t.isSubmission = false) :
    (w.store.enabled.map (·.id)).Nodup ∧
      (w.config.maxConcurrentSubmits ≤ mostSubmissions →
        w.RestartsAll ∧ w.stopAll.1 = w.scheduler.runningCount ∧ w.stopAll.2.RestartsAll ∧
          ∀ rules w', rules.Perm w.store.enabled → BulkRun (w.stopAll.2.listed rules) w' → w'.Through →
            ∀ id, w'.scheduler.isRunning id = true ↔ ∃ rule ∈ w.store.enabled, rule.id = id) ∧
      (mostSubmissions < w.config.maxConcurrentSubmits →
        w.restartAll.1 = .error (.panic tooManySubmissions) ∧ w.restartAll.2.scheduler = w.scheduler) := by
  have hregistry : w.scheduler.Registry := hscheduler ▸ Scheduler.registry_run config actions
  have hsound : w.store.Sound := hstore ▸ RuleStore.sound_run edits
  have hmax : 0 < w.config.maxConcurrentSubmits := Config.maxConcurrentSubmits_pos hconfig
  refine ⟨hsound.nodup_enabled, fun hmost => ?_, fun hlimit => ?_⟩
  · have hstop := ordered_stopAll w
    have hregistry' : w.stopAll.2.scheduler.Registry := by
      rw [hstop.scheduler]
      exact Scheduler.registry_act w.config .stopAll hregistry
    have hready' : ∀ t ∈ w.stopAll.2.ready, t.isSubmission = false := by
      obtain ⟨new, hr, hnew⟩ := hstop.appends
      intro t ht
      rw [hr] at ht
      rcases List.mem_append.mp ht with ht | ht
      · exact hready t ht
      · exact hnew t ht
    have hall : w.stopAll.2.RestartsAll := by
      refine restartsAll hregistry' ?_ ?_ ?_ hready' ?_ ?_
      · rw [hstop.store]; exact hsound
      · rw [hstop.unstored]; exact hunstored
      · rw [hstop.engine]; exact hlist
      · rw [hstop.config]; exact hmax
      · rw [hstop.config]; exact hmost
    refine ⟨restartsAll hregistry hsound hunstored hlist hready hmax hmost, ?_, hall, ?_⟩
    · simp [stopAll, Scheduler.stopAll, Scheduler.runningCount, Table.values, Table.size]
    · intro rules w' hperm hrun hthrough id
      rw [(hall.anyOrder rules w' (hstop.store.symm ▸ hperm) hrun hthrough).2.running, hstop.store, hstop.scheduler]
      have hnone := w.scheduler.isRunning_stopAll id
      simp [Scheduler.act, hnone]
  · rw [restartAll_eq hlist, if_pos hlimit]
    exact ⟨rfl, rfl⟩

/-- A rule that is switched off. -/
def switchedOff : Rule := { Rule.errorCount with id := "r2", enabled := false }

/-- One rule is stored and switched on, and the loop of another one, which is switched off, runs. -/
def oneOfTwo (config : Config) : Simulation :=
  let w := ((initial config .epoch).upsert .errorCount).2
  ((w.upsert switchedOff).2.submit switchedOff).2

/-- A bulk restart starts the loop of the rule that is switched on and keeps that of the other one; after a stop of all
loops only the first one runs. -/
theorem bulk_restart_oneOfTwo :
    let w := oneOfTwo .standard
    w.restartAll.1 = .ok 1 ∧ w.RestartsAll ∧ w.stopAll.1 = 1 ∧ w.stopAll.2.RestartsAll := by
  intro w
  obtain ⟨-, hmost, -⟩ := @bulk_restart .standard [.submit switchedOff] [.upsert .errorCount, .upsert switchedOff] w
    (by decide) (by decide) rfl (by decide) (by decide) (by decide)
  obtain ⟨hall, hstopped, hall', -⟩ := hmost (by decide)
  refine ⟨?_, hall, ?_, hall'⟩
  · rw [hall.returned]
    rfl
  · rw [hstopped]
    decide

/-- A limit that passes the check of the configuration makes a bulk restart panic. -/
theorem limit_passes_and_panics :
    let w := oneOfTwo { Config.standard with maxConcurrentSubmits := mostSubmissions + 1 }
    w.config.validate = .ok () ∧ w.store.enabled = [.errorCount] ∧ w.engine.fails .listRules = false ∧
      w.restartAll.1 = .error (.panic tooManySubmissions) ∧ w.restartAll.2.scheduler = w.scheduler := by
  intro w
  refine ⟨?_, ?_, ?_, ?_, ?_⟩ <;> rfl

end Simulation

end Alerting
