import Alerting.Proofs.Scheduler.Refused
import Alerting.Proofs.Simulation.Bulk

/-!
# Rules that a bulk restart reports

A bulk restart restarts every rule of its list, so it reports a rule exactly if the rule cannot be scheduled
(`reported_iff`), and by then it has stopped the loop of the rule and done nothing else to the scheduler
(`onlyStopped_turnSubmission`). Whatever has its turn in between, the loops of the rules that are not on the list stay
registered, and those of the refused ones do not come back (`refuses`).
-/

namespace Alerting

theorem Engine.note_injective (e : Engine) {n n' : Notice} (h : e.note n = e.note n') : n = n' := by
  have hnotices := congrArg Engine.notices h
  simpa [note] using hnotices

namespace Simulation

/-- What a bulk restart of some rules, which has come to `w'`, does with the rules that cannot be scheduled. -/
structure Refuses (w : Simulation) (rules : List Rule) (w' : Simulation) : Prop where
  /-- A rule is reported in the turn of its submission exactly if it cannot be scheduled. -/
  reported : ∀ before rule after e, w'.ready = before ++ .submission rule :: after →
    (({ w' with ready := before ++ after }.turn (.submission rule)).engine =
      w'.engine.note (.submitFailed rule.id e) ↔ rule.validate = .error e)
  /-- This turn stops the loop of the rule and changes nothing else in the scheduler. -/
  stopped : ∀ before rule after e, w'.ready = before ++ .submission rule :: after → rule.validate = .error e →
    w'.scheduler.OnlyStopped ({ w' with ready := before ++ after }.turn (.submission rule)).scheduler rule.id
  others : ∀ id, (∀ rule ∈ rules, rule.id ≠ id) → w'.scheduler.isRunning id = w.scheduler.isRunning id
  /-- When all submissions are through, those rules that can be scheduled have been started. Each restart of the list
  is one turn here and counts by itself, also where two rules of the list have one id and the later restart replaces
  the loop of the earlier one. -/
  started : w'.Through → w'.bulk.started = rules.countP (·.validate.isOk)
  /-- By then a rule that is listed only in forms that cannot be scheduled has no loop any more. -/
  refused : w'.Through → ∀ id, (∃ rule ∈ rules, rule.id = id) →
    (∀ rule ∈ rules, rule.id = id → ∃ e, rule.validate = .error e) →
    w'.scheduler.loops.get? id = none ∧
      ∀ r, w.scheduler.loops.get? id = some r → w'.scheduler.isCancelled r.token = true

section Refuses

variable {w w' : Simulation} {rules : List Rule}

/-- A rule is reported exactly if it cannot be scheduled. -/
theorem reported_iff (w : Simulation) (rule : Rule) (e : EngineError) :
    (w.turnSubmission rule).engine = w.engine.note (.submitFailed rule.id e) ↔ rule.validate = .error e := by
  rw [(counted_turnSubmission w rule).2]
  cases hv : rule.validate with
  | ok =>
    refine iff_of_false (fun h => ?_) (by simp)
    -- the notices of one engine are not one more than they are
    have hlength := congrArg (fun e => e.notices.length) h
    simp [Engine.note] at hlength
  | error error =>
    constructor
    · intro h
      cases w.engine.note_injective h
      rfl
    · intro h
      cases h
      rfl

theorem onlyStopped_turnSubmission (h : w.scheduler.Registry) {rule : Rule} {e : EngineError}
    (hv : rule.validate = .error e) : w.scheduler.OnlyStopped (w.turnSubmission rule).scheduler rule.id := by
  rw [(resubmitted_turnSubmission w rule).scheduler, Scheduler.restart_of_invalid _ hv]
  exact h.onlyStopped_stop rule.id

/-- **In every order of turns a bulk restart refuses the rules that cannot be scheduled**, and stops their loops. -/
theorem refuses (hregistry : w.scheduler.Registry) (hready : ∀ t ∈ w.ready, t.isSubmission = false)
    (hrun : BulkRun (w.listed rules) w') : w.Refuses rules w' := by
  obtain ⟨done, hacc, h⟩ := (accounted_listed hready rules).run_keeps (P := Scheduler.Refusing w.scheduler)
    (fun config ha h => h.inner config ha) (fun {_ _ rule} _ h => h.restart rule) hregistry.refusing hrun
  refine ⟨fun before rule after e _ => ?_, fun before rule after e _ hv => ?_, fun id hid => ?_, fun hthrough => ?_,
    fun hthrough id hid hall => ?_⟩
  · exact reported_iff { w' with ready := before ++ after } rule e
  · exact onlyStopped_turnSubmission (w := { w' with ready := before ++ after }) h.registry hv
  · exact h.others id fun rule hrule => hid rule (hacc.split.mem_iff.mp (List.mem_append_left _ hrule))
  · rw [hacc.started, (hacc.perm_of_through hthrough).countP_eq]
  · have hperm := hacc.perm_of_through hthrough
    obtain ⟨rule, hrule, hrid⟩ := hid
    have hnone := h.refused id ⟨rule, hperm.mem_iff.mpr hrule, hrid⟩
      fun rule' hrule' => hall rule' (hperm.mem_iff.mp hrule')
    rw [Scheduler.isRunning_eq_false_iff] at hnone
    refine ⟨hnone, fun r hr => (h.tracked id r hr).resolve_right fun hsame => ?_⟩
    rw [hnone] at hsame
    cases hsame

end Refuses

/-- **A rule that is refused loses its own loop at most.** In every state that a scheduler can reach, a submission that
fails changes nothing, and every loop goes on; a restart that fails has stopped the loop of its rule, and every other loop
goes on. A bulk restart, of whatever rules and in whatever order of turns, does the same for each rule that it reports. -/
theorem refused_rules (config : Config) (actions : List Scheduler.Action) :
    let s := Scheduler.run config actions
    (∀ rule e, (s.submit rule).1 = .error e → (s.submit rule).2 = s ∧ ∀ id, s.GoesOnAs (s.submit rule).2 id) ∧
    (∀ rule e, (s.restart rule).1 = .error e → s.OnlyStopped (s.restart rule).2 rule.id) ∧
    ∀ w : Simulation, w.scheduler = s → (∀ t ∈ w.ready, t.isSubmission = false) →
      (∀ rules w', BulkRun (w.listed rules) w' → w.Refuses rules w') ∧
      (w.config.validate = .ok () → w.config.maxConcurrentSubmits ≤ mostSubmissions →
        w.engine.fails .listRules = false →
        w.restartAll.1 = .ok (w.enabled.countP (·.validate.isOk)) ∧ w.restartAll.2.Through ∧
          w.Refuses w.enabled w.restartAll.2) := by
  intro s
  have hregistry : s.Registry := Scheduler.registry_run config actions
  refine ⟨fun rule e he => ?_, fun rule e he => ?_, fun w hw hready => ?_⟩
  · have hsame : (s.submit rule).2 = s := by
      rw [Scheduler.submit_of_invalid (Scheduler.submit_eq_error_iff.mp he)]
    rw [hsame]
    exact ⟨rfl, hregistry.goesOnAs_self⟩
  · rw [Scheduler.restart_of_invalid _ (Scheduler.restart_eq_error_iff.mp he)]
    exact hregistry.onlyStopped_stop rule.id
  · have hrefuses : ∀ rules w', BulkRun (w.listed rules) w' → w.Refuses rules w' :=
      fun rules w' hrun => refuses (hw ▸ hregistry) hready hrun
    refine ⟨hrefuses, fun hconfig hmost hlist => ?_⟩
    obtain ⟨hreturned, hrun, hthrough⟩ :=
      restartAll_spec hlist hready (Config.maxConcurrentSubmits_pos hconfig) hmost
    have h := hrefuses _ _ hrun
    exact ⟨by rw [hreturned, h.started hthrough], hthrough, h⟩

/-- A form of the rule that cannot be scheduled. -/
def neverDue : Rule := { Rule.errorCount with interval := ⟨0, .seconds⟩ }

/-- The loop of a rule runs, and a rule store of someone else lists a form of the rule that cannot be scheduled. -/
def withNeverDue : Simulation := { ((initial .standard .epoch).submit .errorCount).2 with unstored := [neverDue] }

/-- The loop of the rule goes on after a submission of the form that cannot be scheduled, and is stopped by a restart and
by a bulk restart of it. -/
theorem refused_rules_neverDue :
    let s := Scheduler.run .standard [.submit .errorCount]
    let w := withNeverDue
    (s.submit neverDue).2 = s ∧ s.OnlyStopped (s.restart neverDue).2 "r1" ∧ w.restartAll.1 = .ok 0 ∧
      w.restartAll.2.scheduler.loops.get? "r1" = none := by
  intro s w
  obtain ⟨hsubmit, hrestart, hbulk⟩ := refused_rules .standard [.submit .errorCount]
  obtain ⟨hreturned, hthrough, h⟩ := (hbulk w rfl (by decide)).2 rfl (by decide) rfl
  have hlisted : w.enabled = [neverDue] := rfl
  have hinvalid : ∀ rule ∈ w.enabled, rule.validate = .error (.invalidRule (.zeroInterval "r1")) := by
    intro rule hrule
    rw [hlisted, List.mem_singleton] at hrule
    rw [hrule]
    rfl
  refine ⟨(hsubmit neverDue _ rfl).1, hrestart neverDue _ rfl, hreturned, ?_⟩
  exact (h.refused hthrough "r1" ⟨neverDue, by simp [hlisted], rfl⟩ fun rule hrule _ => ⟨_, hinvalid rule hrule⟩).1

/-- A restart that fails ends the loop that the rule had. -/
theorem failed_restart_ends_loop :
    let s := Scheduler.run .standard [.submit .errorCount]
    (s.restart neverDue).1 = .error (.invalidRule (.zeroInterval "r1")) ∧ s.isRunning "r1" = true ∧
      (s.restart neverDue).2.isRunning "r1" = false :=
  ⟨rfl, rfl, rfl⟩

end Simulation

end Alerting
