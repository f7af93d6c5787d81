import Alerting.Proofs.Simulation.Change

/-!
# What is ordered from outside, and the queue of ready tasks

A submission, a stop or a restart acts on the scheduler and makes loops ready (`Ordered`). So does the turn of a
submission in a bulk restart, which besides counts in its `bulk`.

Whatever happens in a turn, the queue of ready tasks only gets longer, and no turn makes a submission ready
(`Appends`). A ready submission therefore comes nearer to its turn with every turn of another task: the place of the
first one goes down (`Simulation.ahead`), and with its turn the number of those to come (`Simulation.outstanding`).
-/

namespace Alerting.Simulation

/-- Tasks have become ready, and none of them is a submission. -/
def Appends (w w' : Simulation) : Prop := ∃ new, w'.ready = w.ready ++ new ∧ ∀ t ∈ new, t.isSubmission = false

section Appends

variable {w w' w'' : Simulation}

theorem Appends.of_eq (h : w'.ready = w.ready) : Appends w w' :=
  ⟨[], by simpa using h, fun _ ht => absurd ht List.not_mem_nil⟩

theorem Appends.refl (w : Simulation) : Appends w w := .of_eq rfl

theorem Appends.trans (h : Appends w w') (h' : Appends w' w'') : Appends w w'' := by
  obtain ⟨new, hw, hnew⟩ := h
  obtain ⟨new', hw', hnew'⟩ := h'
  refine ⟨new ++ new', by rw [hw', hw, List.append_assoc], fun t ht => ?_⟩
  rcases List.mem_append.mp ht with ht | ht
  · exact hnew t ht
  · exact hnew' t ht

theorem Appends.spawn {t : Task} (ht : t.isSubmission = false) (h : Appends w w') : Appends w (w'.spawn t) :=
  h.trans ⟨[t], rfl, fun u hu => by rw [List.mem_singleton.mp hu]; exact ht⟩

theorem Appends.wake {t : Task} (ht : t.isSubmission = false) (h : Appends w w') : Appends w (w'.wake t) := by
  unfold Simulation.wake
  split
  · exact h
  · exact h.spawn ht

end Appends

/-! ## Orders -/

/-- The scheduler has acted, loops may have become ready, and everything else is as it was. -/
structure Ordered (a : Scheduler.Action) (w w' : Simulation) : Prop where
  scheduler : w'.scheduler = w.scheduler.act w.config a
  engine : w'.engine = w.engine
  config : w'.config = w.config
  store : w'.store = w.store
  unstored : w'.unstored = w.unstored
  evaluations : w'.evaluations = w.evaluations
  bulk : w'.bulk = w.bulk
  appends : Appends w w'

section Orders

variable (w : Simulation)

/-- Waking a loop is the only other thing that an order does. -/
theorem Ordered.wake {a : Scheduler.Action} {w w' : Simulation} (h : Ordered a w w') (generation : Nat) :
    Ordered a w (w'.wake (.loop generation)) := by
  have happ := h.appends.wake (t := .loop generation) rfl
  unfold Simulation.wake spawn at happ ⊢
  split
  · exact h
  · next hr =>
    rw [if_neg hr] at happ
    exact ⟨h.scheduler, h.engine, h.config, h.store, h.unstored, h.evaluations, h.bulk, happ⟩

theorem Ordered.tell {a : Scheduler.Action} {w w' : Simulation} (h : Ordered a w w') (r : Option Registration) :
    Ordered a w (w'.tell r) := by
  cases r with
  | none => exact h
  | some r => exact h.wake r.generation

theorem ordered_scheduler (a : Scheduler.Action) : Ordered a w { w with scheduler := w.scheduler.act w.config a } :=
  ⟨rfl, rfl, rfl, rfl, rfl, rfl, rfl, .of_eq rfl⟩

theorem ordered_stop (rule : String) : Ordered (.stop rule) w (w.stop rule).2 :=
  (ordered_scheduler w (.stop rule)).tell _

theorem ordered_submit (rule : Rule) : Ordered (.submit rule) w (w.submit rule).2 := by
  have h := ordered_scheduler w (.submit rule)
  simp only [Scheduler.act] at h
  unfold submit
  split
  · next hs => rwa [hs] at h
  · next hs => rwa [hs] at h
  · next hs =>
    rw [hs] at h
    exact ⟨h.scheduler, rfl, rfl, rfl, rfl, rfl, rfl, (Appends.of_eq rfl).spawn rfl⟩

theorem ordered_restart (rule : Rule) : Ordered (.restart rule) w (w.restart rule).2 := by
  have hstop := ordered_stop w rule.id
  have hsubmit := ordered_submit (w.stop rule.id).2 rule
  refine ⟨?_, hsubmit.engine.trans hstop.engine, hsubmit.config.trans hstop.config, hsubmit.store.trans hstop.store,
    hsubmit.unstored.trans hstop.unstored, hsubmit.evaluations.trans hstop.evaluations,
    hsubmit.bulk.trans hstop.bulk, hstop.appends.trans hsubmit.appends⟩
  exact hsubmit.scheduler.trans (by rw [hstop.scheduler]; rfl)

/-- The rule of a submission has been restarted, the bulk restart has counted that, and a refusal has been noted. -/
structure Resubmitted (rule : Rule) (w w' : Simulation) : Prop where
  scheduler : w'.scheduler = (w.scheduler.restart rule).2
  engine : w'.engine = w.engine ∨ ∃ n, w'.engine = w.engine.note n
  config : w'.config = w.config
  store : w'.store = w.store
  evaluations : w'.evaluations = w.evaluations
  waiting : w'.bulk.waiting = w.bulk.waiting
  appends : Appends w w'

theorem resubmitted_turnSubmission (rule : Rule) : Resubmitted rule w (w.turnSubmission rule) := by
  let w₀ : Simulation := { w with bulk := { w.bulk with underWay := w.bulk.underWay - 1 } }
  have h := ordered_restart w₀ rule
  have happ : Appends w (w₀.restart rule).2 := (Appends.of_eq rfl).trans h.appends
  have hwaiting : (w₀.restart rule).2.bulk.waiting = w.bulk.waiting := by rw [h.bulk]
  have hrestarted : Resubmitted rule w (w₀.restart rule).2 :=
    ⟨h.scheduler, .inl h.engine, h.config, h.store, h.evaluations, hwaiting, happ⟩
  unfold turnSubmission
  split
  · next w₁ hr =>
    rw [hr] at hrestarted
    exact ⟨hrestarted.scheduler, hrestarted.engine, hrestarted.config, hrestarted.store, hrestarted.evaluations,
      hrestarted.waiting, hrestarted.appends⟩
  · next hr =>
    rw [hr] at hrestarted
    exact hrestarted
  · next error w₁ hr =>
    have hengine := h.engine
    rw [hr] at hrestarted hengine
    refine ⟨hrestarted.scheduler, .inr ⟨.submitFailed rule.id error, ?_⟩, hrestarted.config, hrestarted.store,
      hrestarted.evaluations, hrestarted.waiting, hrestarted.appends⟩
    exact congrArg (Engine.note · (.submitFailed rule.id error)) hengine

end Orders

/-! ## Submissions on their way -/

/-- Whether a submission of a bulk restart is ready. -/
def hasSubmission (w : Simulation) : Bool := w.ready.any (·.isSubmission)

/-- How many submissions of a bulk restart are still to come. -/
def outstanding (w : Simulation) : Nat := w.bulk.waiting.length + w.ready.countP (·.isSubmission)

/-- How many tasks have their turn before the first ready submission. -/
def ahead (w : Simulation) : Nat := w.ready.findIdx (·.isSubmission)

section Queue

variable {w w' : Simulation}

/-- What the turn of a task other than a submission leaves as it is. -/
structure Left (w w' : Simulation) : Prop where
  config : w'.config = w.config
  store : w'.store = w.store
  unstored : w'.unstored = w.unstored
  bulk : w'.bulk = w.bulk
  appends : Appends w w'

theorem Left.refl (w : Simulation) : Left w w := ⟨rfl, rfl, rfl, rfl, .refl w⟩

theorem Left.change {w₀ : Simulation} (hc : Change w w') (h : Left w₀ w) : Left w₀ w' := by
  cases hc with
  | awoken t ht => exact ⟨h.config, h.store, h.unstored, h.bulk, h.appends.spawn ht⟩
  | _ => exact ⟨h.config, h.store, h.unstored, h.bulk, h.appends.trans (.of_eq rfl)⟩

theorem left_turn (w : Simulation) {t : Task} (ht : t.isSubmission = false) : Left w (w.turn t) :=
  turn_keeps (P := Left w) Left.change (fun _ _ _ _ h => ⟨h.config, h.store, h.unstored, h.bulk, h.appends⟩)
    (fun _ _ _ _ h => ⟨h.config, h.store, h.unstored, h.bulk, h.appends⟩) ht (.refl w)

/-- A turn makes no submission wait or ready. -/
theorem turn_bulk (w : Simulation) (t : Task) :
    (w.turn t).bulk.waiting = w.bulk.waiting ∧ Appends w (w.turn t) := by
  cases ht : t.isSubmission with
  | false =>
    have h := left_turn w ht
    exact ⟨by rw [h.bulk], h.appends⟩
  | true =>
    cases t with
    | submission rule => exact ⟨(w.resubmitted_turnSubmission rule).waiting, (w.resubmitted_turnSubmission rule).appends⟩
    | _ => cases ht

theorem countP_of_appends (h : Appends w w') : w'.ready.countP (·.isSubmission) = w.ready.countP (·.isSubmission) := by
  obtain ⟨new, hr, hnew⟩ := h
  have h0 : new.countP (·.isSubmission) = 0 := List.countP_eq_zero.mpr fun t ht => by simp [hnew t ht]
  rw [hr, List.countP_append, h0, Nat.add_zero]

/-- The submissions that are still to come are as many as before, or one less after the turn of one. -/
theorem outstanding_turn {t : Task} {rest : List Task} (hr : w.ready = t :: rest) :
    ({ w with ready := rest }.turn t).outstanding + (if t.isSubmission then 1 else 0) = w.outstanding := by
  obtain ⟨hwaiting, happ⟩ := turn_bulk { w with ready := rest } t
  have hcount := countP_of_appends happ
  simp only [outstanding, hwaiting, hcount, hr, List.countP_cons]
  omega

theorem ahead_of_appends (h : Appends w w') (hs : w.hasSubmission = true) : w'.ahead = w.ahead := by
  obtain ⟨new, hr, -⟩ := h
  rw [ahead, hr, List.findIdx_append, if_pos (List.findIdx_lt_length.mpr (List.any_eq_true.mp hs))]
  rfl

theorem hasSubmission_of_appends (h : Appends w w') (hs : w.hasSubmission = true) : w'.hasSubmission = true := by
  obtain ⟨new, hr, -⟩ := h
  obtain ⟨t, ht, hsub⟩ := List.any_eq_true.mp hs
  exact List.any_eq_true.mpr ⟨t, by rw [hr]; exact List.mem_append_left _ ht, hsub⟩

/-- The bulk restart has come nearer to its end: fewer submissions are to come, or fewer tasks come before the next
one. -/
def Nearer (w' w : Simulation) : Prop :=
  w'.outstanding < w.outstanding ∨ w'.outstanding = w.outstanding ∧ w'.ahead < w.ahead

/-- **While a submission is ready, every turn brings the bulk restart nearer to its end.** -/
theorem nearer_turn {t : Task} {rest : List Task} (hr : w.ready = t :: rest) (hs : w.hasSubmission = true) :
    Nearer ({ w with ready := rest }.turn t) w ∧
      (t.isSubmission = false → ({ w with ready := rest }.turn t).hasSubmission = true) := by
  have hcount := outstanding_turn hr
  cases ht : t.isSubmission with
  | true =>
    rw [ht, if_pos rfl] at hcount
    exact ⟨.inl (by omega), nofun⟩
  | false =>
    obtain ⟨-, happ⟩ := turn_bulk { w with ready := rest } t
    have hrest : hasSubmission { w with ready := rest } = true := by
      simpa [hasSubmission, hr, ht] using hs
    have hahead : w.ahead = ahead { w with ready := rest } + 1 := by
      simp [ahead, hr, List.findIdx_cons, ht]
    have hsame := ahead_of_appends happ hrest
    rw [ht, if_neg Bool.false_ne_true, Nat.add_zero] at hcount
    exact ⟨.inr ⟨hcount, by omega⟩, fun _ => hasSubmission_of_appends happ hrest⟩

theorem outstanding_drainFor_le (n : Nat) (w : Simulation) : (drainFor n w).outstanding ≤ w.outstanding := by
  induction n generalizing w with
  | zero => exact Nat.le_refl _
  | succ n ih =>
    rw [drainFor]
    split
    · exact Nat.le_refl _
    · next t rest hr =>
      have hcount := outstanding_turn hr
      exact Nat.le_trans (ih _) (by omega)

/-- **While a submission is ready, a round of turns brings the bulk restart nearer to its end.** -/
theorem nearer_drainFor (n : Nat) (hs : w.hasSubmission = true) : Nearer (drainFor (n + 1) w) w := by
  induction n generalizing w with
  | zero =>
    rw [drainFor]
    split
    · next hr => simp [hasSubmission, hr] at hs
    · next t rest hr => exact (nearer_turn hr hs).1
  | succ n ih =>
    rw [drainFor]
    split
    · next hr => simp [hasSubmission, hr] at hs
    · next t rest hr =>
      obtain ⟨hnear, hstill⟩ := nearer_turn hr hs
      have hcount := outstanding_turn hr
      cases ht : t.isSubmission with
      | true =>
        rw [ht, if_pos rfl] at hcount
        exact .inl (Nat.lt_of_le_of_lt (outstanding_drainFor_le (n + 1) _) (by omega))
      | false =>
        rcases ih (hstill ht) with hlt | ⟨heq, hlt⟩ <;> rcases hnear with hlt' | ⟨heq', hlt'⟩
        · exact .inl (Nat.lt_trans hlt hlt')
        · exact .inl (by omega)
        · exact .inl (by omega)
        · exact .inr ⟨heq.trans heq', Nat.lt_trans hlt hlt'⟩

end Queue

end Alerting.Simulation
