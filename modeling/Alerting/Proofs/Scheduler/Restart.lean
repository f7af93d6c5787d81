import Alerting.Proofs.Scheduler.Registry

/-!
# Restarting many rules

A restart of a rule that can be scheduled always starts a loop: the old one, if there is one, has been stopped just
before. While rules are restarted one after the other, supervisors and ticks go on. They register and unregister nothing
by themselves; at most they put a new loop in the place of one that panicked. So the rules restarted so far keep loops
that are younger than the first restart, the other loops stay registered, and the token of every loop that is gone is
cancelled (`Restarting`). When all rules of a list are through, that is what a bulk restart is for (`Restarted`).
-/

namespace Alerting.Scheduler

section Steps

variable {l : Label} {s s' : Scheduler}

/-- Supervisors and ticks register and unregister no rule. -/
theorem Step.isRunning_eq (hst : Step s l s') (hr : ∀ rule, l ≠ .register rule) (hu : l ≠ .unregister) (rule : String) :
    s'.isRunning rule = s.isRunning rule := by
  cases hst with
  | registered new => exact absurd rfl (hr new.id)
  | stopped | stoppedAll => exact absurd rfl hu
  | replaced v old _ _ ho =>
    show (s.loops.insert v.rule.id s.next).contains rule = s.loops.contains rule
    rw [Table.contains, Table.contains, Table.get?_insert]
    split
    · next hk => rw [hk, ho]; rfl
    · rfl
  | _ => rfl

theorem Action.label_of_isInner {a : Action} (ha : a.isInner = true) (hl : a.Does l) :
    (∀ rule, l ≠ .register rule) ∧ l ≠ .unregister := by
  constructor
  · rintro rule rfl
    cases a <;> simp_all [Action.Does, isInner]
  · rintro rfl
    cases a <;> simp_all [Action.Does, isInner]

/-- What the steps of supervisors and ticks keep, their actions keep. -/
theorem inner_keeps {P : Scheduler → Prop} (config : Config) {a : Action} (ha : a.isInner = true)
    (keeps : ∀ {l s s'}, (∀ rule, l ≠ .register rule) → l ≠ .unregister → Step s l s' → P s → P s') (hs : P s) :
    P (s.act config a) :=
  act_keeps_of config a (fun hl => keeps (Action.label_of_isInner ha hl).1 (Action.label_of_isInner ha hl).2) hs

end Steps

/-! ## One restart -/

section Restart

variable (s : Scheduler) {rule : Rule}

theorem next_stop (id : String) : (s.stop id).2.next = s.next := by
  unfold stop
  split <;> rfl

theorem isRunning_stop (id : String) : (s.stop id).2.isRunning id = false := by
  rw [isRunning_eq_false_iff, get?_loops_stop, if_pos rfl]

/-- A restart of a rule that can be scheduled stops its loop and registers a new one. -/
theorem restart_eq_register (hv : rule.validate = .ok ()) :
    s.restart rule = (.ok (some s.nextGeneration), (s.stop rule.id).2.register rule) := by
  have hr := s.isRunning_stop rule.id
  have hg : (s.stop rule.id).2.nextGeneration = s.nextGeneration := congrArg Registration.generation (s.next_stop rule.id)
  refine Prod.ext ?_ (submit_eq_register hv hr)
  have hr' : (s.stop rule.id).2.loops.contains rule.id = false := hr
  simp only [restart, submit, hv, issue, isRunning, hr', Bool.false_eq_true, if_false, hg]

/-- A restart of a rule that cannot be scheduled only stops its loop. -/
theorem restart_of_invalid {e : EngineError} (h : rule.validate = .error e) :
    s.restart rule = (.error e, (s.stop rule.id).2) := submit_of_invalid h

theorem get?_loops_restart (hv : rule.validate = .ok ()) (id : String) :
    (s.restart rule).2.loops.get? id = if id = rule.id then some s.next else s.loops.get? id := by
  rw [restart_eq_register s hv]
  show ((s.stop rule.id).2.loops.insert rule.id (s.stop rule.id).2.next).get? id = _
  rw [Table.get?_insert, next_stop, get?_loops_stop]
  split <;> rfl

end Restart

/-! ## Many restarts -/

/-- Some rules have been restarted since `s₀`, in any order and with anything that supervisors and ticks do in between. -/
structure Restarting (s₀ s : Scheduler) (done : List Rule) : Prop where
  registry : s.Registry
  next_le : s₀.nextGeneration ≤ s.nextGeneration
  tracked : ∀ id r, s₀.loops.get? id = some r → s.Tracked id r
  fresh : ∀ rule ∈ done, ∃ r, s.loops.get? rule.id = some r ∧ s₀.nextGeneration ≤ r.generation
  running : ∀ id, s.isRunning id = true ↔ (∃ rule ∈ done, rule.id = id) ∨ s₀.isRunning id = true

section Restarting

variable {s₀ s : Scheduler} {done : List Rule}

theorem Registry.restarting (h : s.Registry) : Restarting s s [] :=
  ⟨h, Nat.le_refl _, fun _ _ hr => .inr hr, fun _ hr => absurd hr List.not_mem_nil, by simp⟩

theorem isRunning_iff {id : String} : s.isRunning id = true ↔ ∃ r, s.loops.get? id = some r :=
  Option.isSome_iff_exists

/-- **Whatever supervisors and ticks do, the restarted rules keep young loops, and the others keep theirs.** -/
theorem Restarting.inner (h : Restarting s₀ s done) (config : Config) {a : Action} (ha : a.isInner = true) :
    Restarting s₀ (s.act config a) done := by
  refine inner_keeps (P := fun s => Restarting s₀ s done) config ha ?_ h
  intro l s s' hregister hunregister hst h
  have hch := hst.registryChange
  have hrun := hst.isRunning_eq hregister hunregister
  refine ⟨h.registry.step hst, Nat.le_trans h.next_le hst.next_le.2, fun id r hr => (h.tracked id r hr).change hch, ?_,
    fun id => by rw [hrun]; exact h.running id⟩
  intro rule hrule
  obtain ⟨r, hr, hg⟩ := h.fresh rule hrule
  obtain ⟨r', hr'⟩ := isRunning_iff.mp ((hrun rule.id).trans (isRunning_iff.mpr ⟨r, hr⟩))
  obtain ⟨k, hk⟩ := hch.get?_cases
  rcases hk rule.id r' hr' with hold | ⟨-, rfl, -⟩
  · rw [hr] at hold
    cases hold
    exact ⟨r, hr', hg⟩
  · exact ⟨s.next, hr', h.next_le⟩

/-- **A restart adds its rule to those that have young loops.** -/
theorem Restarting.restart (h : Restarting s₀ s done) {rule : Rule} (hv : rule.validate = .ok ()) :
    Restarting s₀ (s.restart rule).2 (rule :: done) := by
  have hget := get?_loops_restart s hv
  have hle : s₀.nextGeneration ≤ (s.restart rule).2.nextGeneration :=
    act_keeps_of (P := fun s => s₀.nextGeneration ≤ s.nextGeneration) .standard (.restart rule)
      (fun _ hst hle => Nat.le_trans hle hst.next_le.2) h.next_le
  refine ⟨registry_act .standard (.restart rule) h.registry, hle, tracked_act .standard (.restart rule) h.tracked, ?_, ?_⟩
  · intro rule' hrule'
    by_cases hid : rule'.id = rule.id
    · exact ⟨s.next, by rw [hget, if_pos hid], h.next_le⟩
    · rcases List.mem_cons.mp hrule' with rfl | hrule'
      · exact absurd rfl hid
      · obtain ⟨r, hr, hg⟩ := h.fresh rule' hrule'
        exact ⟨r, by rw [hget, if_neg hid]; exact hr, hg⟩
  · intro id
    rw [isRunning_iff, hget]
    by_cases hid : id = rule.id
    · subst hid
      simp
    · rw [if_neg hid, ← isRunning_iff, h.running]
      simp [Ne.symm hid]

/-- What a bulk restart of some rules has come to: each of them has one loop, which is younger than the bulk restart and
not cancelled; the loops that they had before are cancelled; and no other rule has got or lost its loop. -/
structure Restarted (s s' : Scheduler) (rules : List Rule) : Prop where
  fresh : ∀ rule ∈ rules, ∃ r, s'.loops.get? rule.id = some r ∧ s.nextGeneration ≤ r.generation ∧
    s'.isCancelled r.token = false
  once : ∀ rule ∈ rules, s'.loops.keys.count rule.id = 1
  replaced : ∀ rule ∈ rules, ∀ r, s.loops.get? rule.id = some r → s'.isCancelled r.token = true
  running : ∀ id, s'.isRunning id = true ↔ (∃ rule ∈ rules, rule.id = id) ∨ s.isRunning id = true

theorem Restarting.restarted (h : Restarting s₀ s done) (h₀ : s₀.Registry) {rules : List Rule}
    (hperm : done.Perm rules) : Restarted s₀ s rules := by
  have hfresh : ∀ rule ∈ rules, ∃ r, s.loops.get? rule.id = some r ∧ s₀.nextGeneration ≤ r.generation :=
    fun rule hrule => h.fresh rule (hperm.mem_iff.mpr hrule)
  refine ⟨?_, ?_, ?_, ?_⟩
  · intro rule hrule
    obtain ⟨r, hr, hg⟩ := hfresh rule hrule
    exact ⟨r, hr, hg, h.registry.live.isCancelled_eq_false hr⟩
  · intro rule hrule
    obtain ⟨r, hr, -⟩ := hfresh rule hrule
    have hmem : rule.id ∈ s.loops.keys := Table.mem_keys.mpr (by rw [hr]; rfl)
    rw [(Table.nodup_keys s.loops).count, if_pos hmem]
  · intro rule hrule old hold
    obtain ⟨r, hr, hg⟩ := hfresh rule hrule
    refine (h.tracked rule.id old hold).resolve_right fun hsame => ?_
    rw [hr] at hsame
    cases hsame
    have hlt := (h₀.live.loop_lt rule.id old hold).2
    omega
  · intro id
    rw [h.running]
    simp only [hperm.mem_iff]

end Restarting

end Alerting.Scheduler
