import Alerting.Proofs.Scheduler.Restart

/-!
# Rules that cannot be scheduled

A submission fails exactly if its rule cannot be scheduled, and then it changes nothing. A restart is a stop and a
submission, in this order: if its rule cannot be scheduled, the stop has been made by then, so the rule is left without
a loop (`OnlyStopped`). The loops of all other rules go on (`GoesOnAs`).

In a bulk restart supervisors and ticks go on between the restarts, and some of the rules may be ones that can be
scheduled. Whatever the order, a rule that has been restarted only in forms that cannot be scheduled is left without a
loop, and a rule that has not been restarted is registered as before (`Refusing`).
-/

namespace Alerting.Scheduler

section Errors

variable {s : Scheduler} {rule : Rule} {e : EngineError}

/-- A submission fails exactly if its rule cannot be scheduled. -/
theorem submit_eq_error_iff : (s.submit rule).1 = .error e ↔ rule.validate = .error e := by
  cases hv : rule.validate with
  | error error =>
    rw [submit_of_invalid hv]
    simp only [Except.error.injEq]
  | ok =>
    simp only [submit, hv, reduceCtorEq, iff_false]
    split <;> simp

theorem restart_eq_error_iff : (s.restart rule).1 = .error e ↔ rule.validate = .error e := submit_eq_error_iff

end Errors

/-! ## One restart -/

/-- The loop of a rule goes on in `s'` as it was in `s`: it has the same registration, and its token is not cancelled
and its supervisor the same. A rule without a loop has none. -/
structure GoesOnAs (s s' : Scheduler) (id : String) : Prop where
  registration : s'.loops.get? id = s.loops.get? id
  running : ∀ r, s.loops.get? id = some r → s'.isCancelled r.token = false ∧
    ∃ v ∈ s.supervisors, v ∈ s'.supervisors ∧ v.rule.id = id ∧ v.registration = r ∧ v.phase ≠ .leaving

/-- The loop of a rule, if there was one, has been stopped, and nothing else has happened. -/
structure OnlyStopped (s s' : Scheduler) (id : String) : Prop where
  unregistered : s'.loops.get? id = none
  cancelled : ∀ r, s.loops.get? id = some r → s'.isCancelled r.token = true
  others : ∀ other, other ≠ id → s.GoesOnAs s' other
  rest : s' = { s with loops := s'.loops, cancelled := s'.cancelled }

section Stop

variable {s s' : Scheduler} {id : String}

/-- A loop goes on if it keeps its registration and its supervisor. -/
theorem Registry.goesOnAs (h : s.Registry) (h' : s'.Registry) (hl : s'.loops.get? id = s.loops.get? id)
    (hs : s'.supervisors = s.supervisors) : s.GoesOnAs s' id := by
  refine ⟨hl, fun r hr => ⟨h'.live.isCancelled_eq_false (hl.trans hr), ?_⟩⟩
  obtain ⟨v, hv, hrule, hreg, hphase⟩ := h.led id r hr
  exact ⟨v, hv, hs ▸ hv, hrule, hreg, hphase⟩

theorem Registry.goesOnAs_self (h : s.Registry) (id : String) : s.GoesOnAs s id := h.goesOnAs h rfl rfl

theorem stop_fst (s : Scheduler) (id : String) : (s.stop id).1 = s.loops.get? id := by
  unfold stop
  split <;> next hr => rw [hr]

/-- A stop writes in two places only. -/
theorem stop_snd (s : Scheduler) (id : String) :
    (s.stop id).2 = { s with loops := (s.stop id).2.loops, cancelled := (s.stop id).2.cancelled } := by
  unfold stop
  split <;> rfl

/-- **A stop stops one loop and nothing else.** -/
theorem Registry.onlyStopped_stop (h : s.Registry) (id : String) : s.OnlyStopped (s.stop id).2 id := by
  have h' : (s.stop id).2.Registry := registry_act .standard (.stop id) h
  have hget := s.get?_loops_stop id
  refine ⟨by rw [hget, if_pos rfl], fun r hr => ?_, fun other hne => ?_, s.stop_snd id⟩
  · exact isCancelled_of_stop ((s.stop_fst id).trans hr)
  · exact h.goesOnAs h' (by rw [hget, if_neg hne]) (by rw [s.stop_snd id])

end Stop

/-! ## Many restarts -/

/-- Some rules have been restarted since `s₀`, whether they can be scheduled or not, in any order and with anything that
supervisors and ticks do in between. -/
structure Refusing (s₀ s : Scheduler) (done : List Rule) : Prop where
  registry : s.Registry
  tracked : ∀ id r, s₀.loops.get? id = some r → s.Tracked id r
  others : ∀ id, (∀ rule ∈ done, rule.id ≠ id) → s.isRunning id = s₀.isRunning id
  refused : ∀ id, (∃ rule ∈ done, rule.id = id) →
    (∀ rule ∈ done, rule.id = id → ∃ e, rule.validate = .error e) → s.isRunning id = false

section Refusing

variable {s₀ s : Scheduler} {done : List Rule}

theorem Registry.refusing (h : s.Registry) : Refusing s s [] :=
  ⟨h, fun _ _ hr => .inr hr, fun _ _ => rfl, fun _ ⟨_, hrule, _⟩ => absurd hrule List.not_mem_nil⟩

/-- Supervisors and ticks neither give a rule a loop nor take one away. -/
theorem Refusing.inner (h : Refusing s₀ s done) (config : Config) {a : Action} (ha : a.isInner = true) :
    Refusing s₀ (s.act config a) done := by
  refine inner_keeps (P := fun s => Refusing s₀ s done) config ha ?_ h
  intro l s s' hregister hunregister hst h
  have hrun := hst.isRunning_eq hregister hunregister
  exact ⟨h.registry.step hst, fun id r hr => (h.tracked id r hr).change hst.registryChange,
    fun id hid => (hrun id).trans (h.others id hid), fun id hid hall => (hrun id).trans (h.refused id hid hall)⟩

/-- A restart decides on the loop of its rule and leaves those of the other rules as they are. -/
theorem isRunning_restart {rule : Rule} {id : String} (hne : id ≠ rule.id) :
    (s.restart rule).2.isRunning id = s.isRunning id := by
  rw [isRunning, Table.contains, restart, get?_loops_submit hne, get?_loops_stop, if_neg hne]
  rfl

/-- **A restart adds its rule to those that were decided on.** -/
theorem Refusing.restart (h : Refusing s₀ s done) (rule : Rule) : Refusing s₀ (s.restart rule).2 (rule :: done) := by
  refine ⟨registry_act .standard (.restart rule) h.registry, tracked_act .standard (.restart rule) h.tracked,
    fun id hid => ?_, fun id hid hall => ?_⟩
  · rw [isRunning_restart (hid rule List.mem_cons_self).symm]
    exact h.others id fun rule' hrule' => hid rule' (List.mem_cons_of_mem _ hrule')
  · by_cases heq : id = rule.id
    · obtain ⟨e, he⟩ := hall rule List.mem_cons_self heq.symm
      rw [restart_of_invalid s he, heq]
      exact s.isRunning_stop rule.id
    · rw [isRunning_restart heq]
      refine h.refused id ?_ fun rule' hrule' => hall rule' (List.mem_cons_of_mem _ hrule')
      obtain ⟨rule', hrule', hid'⟩ := hid
      rcases List.mem_cons.mp hrule' with rfl | hrule'
      · exact absurd hid'.symm heq
      · exact ⟨rule', hrule', hid'⟩

end Refusing

end Alerting.Scheduler
