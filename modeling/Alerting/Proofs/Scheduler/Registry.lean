import Alerting.Proofs.Scheduler.Guard

/-!
# The registry and the supervisors

Whoever works for a loop, its supervisor or one of its ticks, carries the token and the generation of the loop. These
are the registered ones of the rule, or the token is cancelled (`Tracked`): a registration goes away only together with
its token. The other way round, a registered loop has a supervisor that has not let go of it (`Registry.led`).

What a step does to the registry is one of five things (`RegistryChange`), from which the laws of the registry follow
without another look at the steps. A generation is registered once in a whole run (`registry_agrees`), and the
supervisor of a loop that was stopped while it backed off never takes part again (`Retired`).
-/

namespace Alerting

/-- The token and the generation that a supervisor carries. -/
def Supervisor.registration (v : Supervisor) : Registration := ⟨v.token, v.generation⟩

/-- The token and the generation of the loop that fired a tick. -/
def Tick.registration (t : Tick) : Registration := ⟨t.token, t.generation⟩

/-- The loop runs and may fire ticks. -/
def Supervisor.IsLooping (v : Supervisor) : Prop := ∃ panics, v.phase = .looping panics

namespace Scheduler

theorem isCancelled_iff {s : Scheduler} {token : Nat} : s.isCancelled token = true ↔ token ∈ s.cancelled := by
  simp [isCancelled]

theorem isRunning_eq_false_iff {s : Scheduler} {rule : String} :
    s.isRunning rule = false ↔ s.loops.get? rule = none := by
  simp [isRunning, Table.contains]

/-! ## Changes of the registry -/

/-- The next registration that is given out. -/
def next (s : Scheduler) : Registration := ⟨s.nextToken, s.nextGeneration⟩

/-- What a step does to the registry and to the cancelled tokens. -/
inductive RegistryChange (s s' : Scheduler) : Prop
  | none : s'.loops = s.loops → s'.cancelled = s.cancelled → RegistryChange s s'
  | added (rule : String) : s.loops.get? rule = .none → s'.loops = s.loops.insert rule s.next →
      s'.cancelled = s.cancelled → s'.next = ⟨s.nextToken + 1, s.nextGeneration + 1⟩ → RegistryChange s s'
  | dropped (rule : String) (r : Registration) : s.loops.get? rule = some r → s'.loops = s.loops.erase rule →
      s'.cancelled = r.token :: s.cancelled → RegistryChange s s'
  | cleared : s'.loops = .empty → s'.cancelled = s.loops.values.map (·.token) ++ s.cancelled → RegistryChange s s'
  | swapped (rule : String) (old : Registration) : s.loops.get? rule = some old →
      s'.loops = s.loops.insert rule s.next → s'.cancelled = old.token :: s.cancelled →
      s'.next = ⟨s.nextToken + 1, s.nextGeneration + 1⟩ → RegistryChange s s'

theorem Step.registryChange {l : Label} {s s' : Scheduler} (hst : Step s l s') : RegistryChange s s' := by
  cases hst with
  | registered rule _ hr =>
    have hc : (s.guardOf rule.id).2.cancelled = s.cancelled := by
      unfold guardOf
      split <;> rfl
    exact .added rule.id (isRunning_eq_false_iff.mp hr) rfl hc rfl
  | stopped rule r hr => exact .dropped rule r hr rfl rfl
  | stoppedAll => exact .cleared rfl rfl
  | replaced v old _ _ ho _ => exact .swapped v.rule.id old ho rfl rfl rfl
  | idle | refused | launched | started | entered | ended | heard | backedOff | letGo | exited | forgot =>
    exact .none rfl rfl

/-- Numbers only go up. -/
theorem Step.next_le {l : Label} {s s' : Scheduler} (hst : Step s l s') :
    s.nextToken ≤ s'.nextToken ∧ s.nextGeneration ≤ s'.nextGeneration := by
  cases hst with
  | registered | refused | replaced => exact ⟨Nat.le_succ _, Nat.le_succ _⟩
  | idle | stopped | stoppedAll | launched | started | entered | ended | heard | backedOff | letGo | exited | forgot =>
    exact ⟨Nat.le_refl _, Nat.le_refl _⟩

theorem Step.nextTick_le {l : Label} {s s' : Scheduler} (hst : Step s l s') : s.nextTick ≤ s'.nextTick := by
  cases hst with
  | registered rule => exact Nat.le_of_eq (s.guardOf_spec rule.id).2.2.2.symm
  | launched => exact Nat.le_succ _
  | _ => exact Nat.le_refl _

/-- A rule without a loop gets none unless one is registered. -/
theorem Step.unregistered {l : Label} {s s' : Scheduler} (hst : Step s l s') {rule : String} (hl : l ≠ .register rule)
    (h : s.loops.get? rule = none) : s'.loops.get? rule = none := by
  cases hst with
  | registered r =>
    have hne : rule ≠ r.id := by
      rintro rfl
      exact hl rfl
    exact (Table.get?_insert s.loops r.id rule s.next).trans (by rw [if_neg hne]; exact h)
  | stopped r =>
    refine (Table.get?_erase s.loops r rule).trans ?_
    split
    · rfl
    · exact h
  | stoppedAll => rfl
  | replaced v old _ _ ho =>
    have hne : rule ≠ v.rule.id := by
      rintro rfl
      rw [h] at ho
      cases ho
    exact (Table.get?_insert s.loops v.rule.id rule s.next).trans (by rw [if_neg hne]; exact h)
  | idle | refused | launched | started | entered | ended | heard | backedOff | letGo | exited | forgot => exact h

section Change

variable {s s' : Scheduler}

theorem RegistryChange.mem_cancelled (h : RegistryChange s s') {token : Nat} (ht : token ∈ s.cancelled) :
    token ∈ s'.cancelled := by
  cases h with
  | none _ hc | added _ _ _ hc => rw [hc]; exact ht
  | dropped _ _ _ _ hc | swapped _ _ _ _ hc => rw [hc]; exact List.mem_cons_of_mem _ ht
  | cleared _ hc => rw [hc]; exact List.mem_append_right _ ht

/-- A registration after a change was there before, except for a new one of one rule. -/
theorem RegistryChange.get?_cases (h : RegistryChange s s') : ∃ k, ∀ rule r, s'.loops.get? rule = some r →
    s.loops.get? rule = some r ∨ rule = k ∧ r = s.next ∧ s'.next = ⟨s.nextToken + 1, s.nextGeneration + 1⟩ := by
  cases h with
  | none hl =>
    refine ⟨"", fun rule r hr => ?_⟩
    rw [hl] at hr
    exact .inl hr
  | added k _ hl _ hn | swapped k _ _ hl _ hn =>
    refine ⟨k, fun rule r hr => ?_⟩
    rw [hl, Table.get?_insert] at hr
    split at hr
    · next hk => exact .inr ⟨hk, (Option.some.inj hr).symm, hn⟩
    · exact .inl hr
  | dropped k _ _ hl =>
    refine ⟨k, fun rule r hr => ?_⟩
    rw [hl, Table.get?_erase] at hr
    split at hr
    · cases hr
    · exact .inl hr
  | cleared hl =>
    refine ⟨"", fun rule r hr => ?_⟩
    rw [hl] at hr
    cases hr

/-- A token is cancelled by taking a registration out of the registry. -/
theorem RegistryChange.cancelled_cases (h : RegistryChange s s') {token : Nat} (ht : token ∈ s'.cancelled) :
    token ∈ s.cancelled ∨ ∃ k old, s.loops.get? k = some old ∧ old.token = token ∧
      ∀ r, s'.loops.get? k = some r → r = s.next := by
  cases h with
  | none _ hc | added _ _ _ hc =>
    rw [hc] at ht
    exact .inl ht
  | dropped k old ho hl hc =>
    rw [hc] at ht
    rcases List.mem_cons.mp ht with rfl | ht
    · refine .inr ⟨k, old, ho, rfl, fun r hr => ?_⟩
      rw [hl, Table.get?_erase, if_pos rfl] at hr
      cases hr
    · exact .inl ht
  | cleared hl hc =>
    rw [hc] at ht
    rcases List.mem_append.mp ht with ht | ht
    · obtain ⟨old, ho, rfl⟩ := List.mem_map.mp ht
      obtain ⟨k, hk⟩ := Table.mem_values.mp ho
      refine .inr ⟨k, old, hk, rfl, fun r hr => ?_⟩
      rw [hl] at hr
      cases hr
    · exact .inl ht
  | swapped k old ho hl hc =>
    rw [hc] at ht
    rcases List.mem_cons.mp ht with rfl | ht
    · refine .inr ⟨k, old, ho, rfl, fun r hr => ?_⟩
      rw [hl, Table.get?_insert_self] at hr
      exact (Option.some.inj hr).symm
    · exact .inl ht

/-- The registration is the present one of the rule, or its token is cancelled. -/
def Tracked (s : Scheduler) (rule : String) (r : Registration) : Prop :=
  s.isCancelled r.token = true ∨ s.loops.get? rule = some r

/-- **A registration goes away together with its token.** -/
theorem Tracked.change (h : RegistryChange s s') {rule : String} {r : Registration} (hr : s.Tracked rule r) :
    s'.Tracked rule r := by
  rcases hr with hc | hr
  · exact .inl (isCancelled_iff.mpr (h.mem_cancelled (isCancelled_iff.mp hc)))
  · cases h with
    | none hl => exact .inr (by rw [hl]; exact hr)
    | added k hk hl =>
      have hne : rule ≠ k := by
        rintro rfl
        rw [hk] at hr
        cases hr
      exact .inr (by rw [hl, Table.get?_insert, if_neg hne]; exact hr)
    | dropped k old ho hl hc =>
      by_cases hk : rule = k
      · subst hk
        rw [hr] at ho
        cases ho
        exact .inl (isCancelled_iff.mpr (by rw [hc]; exact List.mem_cons_self))
      · exact .inr (by rw [hl, Table.get?_erase, if_neg hk]; exact hr)
    | cleared _ hc =>
      refine .inl (isCancelled_iff.mpr ?_)
      rw [hc]
      exact List.mem_append_left _ (List.mem_map_of_mem (Table.mem_values.mpr ⟨rule, hr⟩))
    | swapped k old ho hl hc =>
      by_cases hk : rule = k
      · subst hk
        rw [hr] at ho
        cases ho
        exact .inl (isCancelled_iff.mpr (by rw [hc]; exact List.mem_cons_self))
      · exact .inr (by rw [hl, Table.get?_insert, if_neg hk]; exact hr)

/-- The tokens of the registered loops are different and not cancelled, and all numbers were given out. -/
structure Live (s : Scheduler) : Prop where
  cancelled_lt : ∀ token ∈ s.cancelled, token < s.nextToken
  loop_lt : ∀ rule r, s.loops.get? rule = some r → r.token < s.nextToken ∧ r.generation < s.nextGeneration
  active : ∀ rule r, s.loops.get? rule = some r → r.token ∉ s.cancelled
  distinct : ∀ rule rule' r r', s.loops.get? rule = some r → s.loops.get? rule' = some r' → r.token = r'.token →
    rule = rule'

theorem Live.change (h : s.Live) (hch : RegistryChange s s')
    (hle : s.nextToken ≤ s'.nextToken ∧ s.nextGeneration ≤ s'.nextGeneration) : s'.Live := by
  obtain ⟨k, hk⟩ := hch.get?_cases
  have hlt : ∀ rule r, s.loops.get? rule = some r → r.token ≠ s.next.token := fun rule r hr =>
    Nat.ne_of_lt (h.loop_lt rule r hr).1
  constructor
  · intro token ht
    rcases hch.cancelled_cases ht with ht | ⟨rule, old, ho, rfl, -⟩
    · have := h.cancelled_lt token ht
      omega
    · have := (h.loop_lt rule old ho).1
      omega
  · intro rule r hr
    rcases hk rule r hr with hr | ⟨-, rfl, hn⟩
    · have := h.loop_lt rule r hr
      omega
    · simp only [next, Registration.mk.injEq] at hn
      simp only [next]
      omega
  · intro rule r hr hcancelled
    rcases hch.cancelled_cases hcancelled with ht | ⟨rule', old, ho, he, hgone⟩
    · rcases hk rule r hr with hr | ⟨-, rfl, -⟩
      · exact h.active rule r hr ht
      · exact absurd (h.cancelled_lt _ ht) (Nat.lt_irrefl _)
    · rcases hk rule r hr with hold | ⟨-, rfl, -⟩
      · -- a registration that stays is not the one whose token was cancelled
        obtain rfl := h.distinct rule' rule old r ho hold he
        exact hlt rule' r hold (by rw [hgone r hr])
      · exact hlt rule' old ho he
  · intro rule rule' r r' hr hr' he
    rcases hk rule r hr with hr | ⟨rfl, rfl, -⟩ <;> rcases hk rule' r' hr' with hr' | ⟨rfl, rfl, -⟩
    · exact h.distinct rule rule' r r' hr hr' he
    · exact absurd he (hlt rule r hr)
    · exact absurd he.symm (hlt rule' r' hr')
    · rfl

theorem Live.isCancelled_eq_false (h : s.Live) {rule : String} {r : Registration} (hr : s.loops.get? rule = some r) :
    s.isCancelled r.token = false := by
  rw [← Bool.not_eq_true, isCancelled_iff]
  exact h.active rule r hr

end Change

/-! ## Supervisors and ticks -/

section Steps

variable {l : Label} {s s' : Scheduler}

/-- A supervisor whose loop goes on: the rule, the guard and the registration stay, and it does not begin to run. -/
structure GoesOn (v w : Supervisor) : Prop where
  rule : w.rule = v.rule
  guard : w.guard = v.guard
  registration : w.registration = v.registration
  looping : w.IsLooping → v.IsLooping

theorem GoesOn.refl (v : Supervisor) : GoesOn v v := ⟨rfl, rfl, rfl, id⟩

theorem mem_updateSupervisor {generation : Nat} {f : Supervisor → Supervisor} {w : Supervisor} :
    w ∈ (s.updateSupervisor generation f).supervisors ↔
      ∃ v ∈ s.supervisors, (if v.generation == generation then f v else v) = w := List.mem_map

theorem goesOn_of_mem_updateSupervisor {generation : Nat} {f : Supervisor → Supervisor} (hf : ∀ v, GoesOn v (f v))
    {w : Supervisor} (hw : w ∈ (s.updateSupervisor generation f).supervisors) : ∃ v ∈ s.supervisors, GoesOn v w := by
  obtain ⟨v, hv, rfl⟩ := mem_updateSupervisor.mp hw
  refine ⟨v, hv, ?_⟩
  split
  · exact hf v
  · exact .refl v

/-- A supervisor after a step goes on with its loop, or it has a new one. -/
theorem Step.supervisor_cases (hst : Step s l s') (hn : s.Numbered) {w : Supervisor} (hw : w ∈ s'.supervisors) :
    (∃ v ∈ s.supervisors, GoesOn v w) ∨ w.registration = s.next ∧ s'.loops.get? w.rule.id = some s.next := by
  cases hst with
  | idle | refused | stopped | stoppedAll | launched | started | entered | ended | forgot =>
    exact .inl ⟨w, hw, .refl w⟩
  | registered rule =>
    rcases List.mem_append.mp hw with hw | hw
    · exact .inl ⟨w, hw, .refl w⟩
    · rw [List.mem_singleton.mp hw]
      exact .inr ⟨rfl, Table.get?_insert_self ..⟩
  | heard =>
    refine .inl (goesOn_of_mem_updateSupervisor (fun v => ?_) hw)
    split
    · next hp => exact ⟨rfl, rfl, rfl, fun _ => ⟨_, hp⟩⟩
    · exact .refl v
  | backedOff v _ backoff =>
    exact .inl (goesOn_of_mem_updateSupervisor (f := fun u => { u with backoff := backoff, phase := .backingOff })
      (fun u => ⟨rfl, rfl, rfl, fun ⟨_, hp⟩ => nomatch hp⟩) hw)
  | letGo v =>
    exact .inl (goesOn_of_mem_updateSupervisor (f := fun u => { u with phase := .leaving })
      (fun u => ⟨rfl, rfl, rfl, fun ⟨_, hp⟩ => nomatch hp⟩) hw)
  | exited v => exact .inl ⟨w, (List.mem_filter.mp hw).1, .refl w⟩
  | replaced v old hv =>
    obtain ⟨u, hu, rfl⟩ := mem_updateSupervisor.mp hw
    split
    · next hg =>
      obtain rfl := hn.supervisor_eq hu hv (by simpa using hg)
      exact .inr ⟨rfl, Table.get?_insert_self ..⟩
    · exact .inl ⟨u, hu, .refl u⟩

/-- A tick after a step was there before, or a loop that runs has fired it. -/
theorem Step.tick_cases (hst : Step s l s') {t : Tick} (ht : t ∈ s'.ticks) :
    (∃ u ∈ s.ticks, t.id = u.id ∧ t.rule = u.rule ∧ t.registration = u.registration) ∨
    ∃ v ∈ s.supervisors, v.IsLooping ∧ t.rule = v.rule.id ∧ t.registration = v.registration ∧ t.id = s.nextTick := by
  have mapped : ∀ {f : Tick → Tick}, (∀ u, (f u).id = u.id ∧ (f u).rule = u.rule ∧ (f u).registration = u.registration) →
      t ∈ s.ticks.map f → ∃ u ∈ s.ticks, t.id = u.id ∧ t.rule = u.rule ∧ t.registration = u.registration := by
    intro f hf hm
    obtain ⟨u, hu, rfl⟩ := List.mem_map.mp hm
    exact ⟨u, hu, hf u⟩
  cases hst with
  | idle | refused | stopped | stoppedAll | heard | replaced | letGo | exited | forgot =>
    exact .inl ⟨t, ht, rfl, rfl, rfl⟩
  | registered rule =>
    rw [show (s.register rule).ticks = s.ticks from (s.guardOf_spec rule.id).2.2.1] at ht
    exact .inl ⟨t, ht, rfl, rfl, rfl⟩
  | launched v panics hv hp =>
    rcases List.mem_append.mp ht with ht | ht
    · exact .inl ⟨t, ht, rfl, rfl, rfl⟩
    · rw [List.mem_singleton.mp ht]
      exact .inr ⟨v, hv, ⟨panics, hp⟩, rfl, rfl, rfl⟩
  | started | entered | backedOff =>
    refine .inl (mapped (fun u => ?_) ht)
    split <;> exact ⟨rfl, rfl, rfl⟩
  | ended u => exact .inl ⟨t, (mem_ticks_endTick.mp ht).1, rfl, rfl, rfl⟩

end Steps

/-! ## The loops and their supervisors -/

/-- Every registered loop has a supervisor that has not let go of it, and whoever works for a loop carries its
registration, unless the token is cancelled. -/
structure Registry (s : Scheduler) : Prop where
  numbered : s.Numbered
  live : s.Live
  led : ∀ rule r, s.loops.get? rule = some r →
    ∃ v ∈ s.supervisors, v.rule.id = rule ∧ v.registration = r ∧ v.phase ≠ .leaving
  supervised : ∀ v ∈ s.supervisors, s.Tracked v.rule.id v.registration
  fired : ∀ t ∈ s.ticks, s.Tracked t.rule t.registration

section Registry

variable {l : Label} {s s' : Scheduler}

/-- The supervisor of a registered loop keeps it when supervisors change that do not let go. -/
theorem Registry.led_updateSupervisor (h : s.Registry) {generation : Nat} {f : Supervisor → Supervisor}
    (hf : ∀ v ∈ s.supervisors, v.generation = generation → s.loops.get? v.rule.id = some v.registration →
      v.phase ≠ .leaving → (f v).rule = v.rule ∧ (f v).registration = v.registration ∧ (f v).phase ≠ .leaving)
    {rule : String} {r : Registration} (hr : s.loops.get? rule = some r) :
    ∃ v ∈ (s.updateSupervisor generation f).supervisors, v.rule.id = rule ∧ v.registration = r ∧ v.phase ≠ .leaving := by
  obtain ⟨v, hv, rfl, rfl, hp⟩ := h.led rule r hr
  refine ⟨_, mem_updateSupervisor.mpr ⟨v, hv, rfl⟩, ?_⟩
  split
  · next hg =>
    obtain ⟨hrule, hreg, hphase⟩ := hf v hv (by simpa using hg) hr hp
    exact ⟨by rw [hrule], hreg, hphase⟩
  · exact ⟨rfl, rfl, hp⟩

/-- **A registered loop keeps a supervisor that has not let go of it.** -/
theorem Registry.led_step (h : s.Registry) (hst : Step s l s') {rule : String} {r : Registration}
    (hr : s'.loops.get? rule = some r) :
    ∃ v ∈ s'.supervisors, v.rule.id = rule ∧ v.registration = r ∧ v.phase ≠ .leaving := by
  cases hst with
  | idle | refused | launched | started | entered | ended | forgot => exact h.led rule r hr
  | registered new =>
    have hr' : (s.loops.insert new.id s.next).get? rule = some r := hr
    rw [Table.get?_insert] at hr'
    split at hr'
    · next hk =>
      cases hr'
      exact ⟨_, List.mem_append_right _ (List.mem_singleton.mpr rfl), hk.symm, rfl, nofun⟩
    · obtain ⟨v, hv, hled⟩ := h.led rule r hr'
      exact ⟨v, List.mem_append_left _ hv, hled⟩
  | stopped k old =>
    have hr' : (s.loops.erase k).get? rule = some r := hr
    rw [Table.get?_erase] at hr'
    split at hr'
    · cases hr'
    · exact h.led rule r hr'
  | stoppedAll => exact nomatch hr
  | heard =>
    refine h.led_updateSupervisor (fun v _ _ _ hp => ?_) hr
    split
    · exact ⟨rfl, rfl, nofun⟩
    · exact ⟨rfl, rfl, hp⟩
  | backedOff v _ backoff =>
    exact h.led_updateSupervisor (f := fun u => { u with backoff := backoff, phase := .backingOff })
      (fun _ _ _ _ _ => ⟨rfl, rfl, nofun⟩) hr
  | replaced v old hv hp ho he =>
    have hr' : (s.loops.insert v.rule.id s.next).get? rule = some r := hr
    rw [Table.get?_insert] at hr'
    split at hr'
    · next hk =>
      cases hr'
      refine ⟨_, mem_updateSupervisor.mpr ⟨v, hv, rfl⟩, ?_⟩
      rw [if_pos (beq_self_eq_true _)]
      exact ⟨hk.symm, rfl, nofun⟩
    · next hk =>
      obtain ⟨u, hu, rfl, rfl, hphase⟩ := h.led rule r hr'
      refine ⟨u, mem_updateSupervisor.mpr ⟨u, hu, ?_⟩, rfl, rfl, hphase⟩
      refine if_neg fun hg => hk ?_
      rw [h.numbered.supervisor_eq hu hv (by simpa using hg)]
  | letGo v hv hgone =>
    refine h.led_updateSupervisor (fun u hu hg hreg _ => ?_) hr
    obtain rfl := h.numbered.supervisor_eq hu hv hg
    rcases hgone with hc | hne
    · exact absurd (isCancelled_iff.mp hc) (h.live.active _ _ hreg)
    · exact absurd rfl (hne _ hreg)
  | exited v hv hp =>
    obtain ⟨u, hu, hrule, hreg, hphase⟩ := h.led rule r hr
    refine ⟨u, List.mem_filter.mpr ⟨hu, ?_⟩, hrule, hreg, hphase⟩
    simp only [bne_iff_ne]
    intro hg
    rw [h.numbered.supervisor_eq hu hv hg] at hphase
    exact hphase hp

/-- **Every step keeps the registry and the supervisors in agreement.** -/
theorem Registry.step (hst : Step s l s') (h : s.Registry) : s'.Registry := by
  have hch := hst.registryChange
  refine ⟨h.numbered.step hst, h.live.change hch hst.next_le, fun rule r => h.led_step hst, ?_, ?_⟩
  · intro w hw
    rcases hst.supervisor_cases h.numbered hw with ⟨v, hv, hgo⟩ | ⟨hreg, hl⟩
    · rw [hgo.rule, hgo.registration]
      exact (h.supervised v hv).change hch
    · rw [hreg]
      exact .inr hl
  · intro t ht
    rcases hst.tick_cases ht with ⟨u, hu, -, hrule, hreg⟩ | ⟨v, hv, -, hrule, hreg, -⟩
    · rw [hrule, hreg]
      exact (h.fired u hu).change hch
    · rw [hrule, hreg]
      exact (h.supervised v hv).change hch

theorem registry_initial : Registry initial := by
  refine ⟨guarded_initial.numbered, ⟨?_, ?_, ?_, ?_⟩, ?_, ?_, ?_⟩ <;> simp [initial]

theorem registry_act {s : Scheduler} (config : Config) (a : Action) (h : s.Registry) : (s.act config a).Registry :=
  act_keeps_of config a (fun _ => Registry.step) h

theorem registry_run (config : Config) (actions : List Action) : (run config actions).Registry :=
  run_keeps Registry.step config actions registry_initial

/-- The loops of an earlier state stay tracked, whatever acts. -/
theorem tracked_act {s₀ s : Scheduler} (config : Config) (a : Action)
    (h : ∀ id r, s₀.loops.get? id = some r → s.Tracked id r) :
    ∀ id r, s₀.loops.get? id = some r → (s.act config a).Tracked id r :=
  act_keeps_of (P := fun s => ∀ id r, s₀.loops.get? id = some r → s.Tracked id r) config a
    (fun _ hst h id r hr => (h id r hr).change hst.registryChange) h

/-- Two registered loops of one generation are one loop. -/
theorem Registry.eq_of_generation_eq (h : s.Registry) {rule rule' : String} {r r' : Registration}
    (hr : s.loops.get? rule = some r) (hr' : s.loops.get? rule' = some r') (hg : r'.generation = r.generation) :
    rule' = rule ∧ r' = r := by
  obtain ⟨v, hv, rfl, rfl, -⟩ := h.led rule r hr
  obtain ⟨w, hw, rfl, rfl, -⟩ := h.led rule' r' hr'
  rw [h.numbered.supervisor_eq hw hv hg]
  exact ⟨rfl, rfl⟩

/-- A supervisor whose loop is not the registered one finds its token cancelled and another generation, or none, in
the registry. -/
theorem Registry.of_not_registered (h : s.Registry) {v : Supervisor} (hv : v ∈ s.supervisors)
    (hne : s.loops.get? v.rule.id ≠ some v.registration) :
    s.isCancelled v.token = true ∧ ∀ rule r, s.loops.get? rule = some r → r.generation ≠ v.generation := by
  refine ⟨(h.supervised v hv).resolve_right hne, fun rule r hr hg => hne ?_⟩
  obtain ⟨w, hw, rfl, rfl, -⟩ := h.led rule r hr
  rw [← h.numbered.supervisor_eq hw hv hg]
  exact hr

end Registry

/-! ## Loops that are over -/

/-- A supervisor without a registered loop is not renewed. -/
theorem renew_eq_none {s : Scheduler} {generation : Nat}
    (h : ∀ rule r, s.loops.get? rule = some r → r.generation ≠ generation) : (s.renew generation).1 = none := by
  unfold renew
  split
  · split
    · next old ho =>
      split
      · next hg => exact absurd (by simpa using hg) (h _ old ho)
      · rfl
    · rfl
  · rfl

/-- A supervisor whose loop does not run fires nothing. -/
theorem fire_eq_none {s : Scheduler} {generation : Nat}
    (h : ∀ v ∈ s.supervisors, v.generation = generation → ¬v.IsLooping) : (s.fire generation).1 = none := by
  unfold fire
  split
  · next hv =>
    obtain ⟨hm, hg⟩ := supervisor?_eq_some hv
    exact absurd ⟨_, rfl⟩ (h _ hm hg)
  · rfl

/-- A generation takes no part any more: it was given out, it is not registered, and its supervisor, if it is still
there, does not run the loop. -/
structure Retired (s : Scheduler) (generation : Nat) : Prop where
  lt : generation < s.nextGeneration
  idle : ∀ v ∈ s.supervisors, v.generation = generation → ¬v.IsLooping
  gone : ∀ rule r, s.loops.get? rule = some r → r.generation ≠ generation

theorem Retired.step {l : Label} {s s' : Scheduler} {generation : Nat} (h : s.Retired generation) (hst : Step s l s')
    (hn : s.Numbered) : s'.Retired generation := by
  refine ⟨Nat.lt_of_lt_of_le h.lt hst.next_le.2, ?_, ?_⟩
  · intro w hw hg hl
    rcases hst.supervisor_cases hn hw with ⟨v, hv, hgo⟩ | ⟨hreg, -⟩
    · have hvg : w.generation = v.generation := congrArg Registration.generation hgo.registration
      exact h.idle v hv (hvg ▸ hg) (hgo.looping hl)
    · have hwg : w.generation = s.nextGeneration := congrArg Registration.generation hreg
      exact absurd h.lt (by rw [← hg, hwg]; exact Nat.lt_irrefl _)
  · intro rule r hr
    obtain ⟨k, hk⟩ := hst.registryChange.get?_cases
    rcases hk rule r hr with hr | ⟨-, rfl, -⟩
    · exact h.gone rule r hr
    · exact (Nat.ne_of_lt h.lt).symm

/-- The loop that a supervisor had in `s` takes no part in `s'`: it is not registered, it cannot be started again, it
fires no tick, and all its ticks are old. -/
structure NoPart (s : Scheduler) (v : Supervisor) (s' : Scheduler) : Prop where
  unregistered : ∀ rule r, s'.loops.get? rule = some r → r.generation ≠ v.generation ∧ r.token ≠ v.token
  unrenewed : (s'.renew v.generation).1 = none
  silent : (s'.fire v.generation).1 = none
  ticks : ∀ t ∈ s'.ticks, t.generation = v.generation → ∃ u ∈ s.ticks, u.id = t.id

/-- **The loop of a supervisor that backs off with a cancelled token never takes part again.** -/
theorem Registry.noPart {s : Scheduler} (h : s.Registry) {v : Supervisor} (hv : v ∈ s.supervisors)
    (hp : v.phase = .backingOff) (hne : s.loops.get? v.rule.id ≠ some v.registration) (config : Config)
    (more : List Action) : s.NoPart v (more.foldl (act config) s) := by
  obtain ⟨hc, hgone⟩ := h.of_not_registered hv hne
  have h₀ : s.Retired v.generation := by
    refine ⟨h.numbered.supervisor_lt v hv, fun w hw hg ⟨_, hl⟩ => ?_, hgone⟩
    rw [h.numbered.supervisor_eq hw hv hg, hp] at hl
    cases hl
  obtain ⟨hreg, hret, hcancelled, hold⟩ := foldl_act_keeps
    (P := fun s' => s'.Registry ∧ s'.Retired v.generation ∧ v.token ∈ s'.cancelled ∧
      ∀ t ∈ s'.ticks, t.generation = v.generation → ∃ u ∈ s.ticks, u.id = t.id)
    (fun hst ⟨hreg, hret, hcancelled, hold⟩ => by
      refine ⟨hreg.step hst, hret.step hst hreg.numbered, hst.registryChange.mem_cancelled hcancelled, ?_⟩
      intro t ht hg
      rcases hst.tick_cases ht with ⟨u, hu, hid, -, hreg'⟩ | ⟨w, hw, hl, -, hreg', -⟩
      · rw [hid]
        exact hold u hu ((congrArg Registration.generation hreg').symm.trans hg)
      · exact absurd hl (hret.idle w hw ((congrArg Registration.generation hreg').symm.trans hg)))
    config more ⟨h, h₀, isCancelled_iff.mp hc, fun t ht _ => ⟨t, ht, rfl⟩⟩
  refine ⟨fun rule r hr => ⟨hret.gone rule r hr, fun he => ?_⟩, renew_eq_none hret.gone, fire_eq_none hret.idle, hold⟩
  exact hreg.live.active rule r hr (he ▸ hcancelled)

/-- A registration was there at an earlier point of a run, or its generation was not given out then. -/
theorem get?_foldl_act (config : Config) (more : List Action) {s : Scheduler} {rule : String} {r : Registration}
    (hr : (more.foldl (act config) s).loops.get? rule = some r) :
    s.loops.get? rule = some r ∨ s.nextGeneration ≤ r.generation := by
  have h := foldl_act_keeps (P := fun s' => s.nextGeneration ≤ s'.nextGeneration ∧
      ∀ rule r, s'.loops.get? rule = some r → s.loops.get? rule = some r ∨ s.nextGeneration ≤ r.generation)
    (fun hst ⟨hle, hold⟩ => by
      refine ⟨Nat.le_trans hle hst.next_le.2, fun rule r hr => ?_⟩
      obtain ⟨k, hk⟩ := hst.registryChange.get?_cases
      rcases hk rule r hr with hr | ⟨-, rfl, -⟩
      · exact hold rule r hr
      · exact .inr hle)
    config more ⟨Nat.le_refl _, fun _ _ hr => .inl hr⟩
  exact h.2 rule r hr

/-- **The registry and the supervisors agree.** A rule has one registered loop at most; its token is not cancelled, its
generation is that of no other loop that was ever registered, and of all supervisors one carries the two. Every other
supervisor carries a cancelled token and is not renewed; if it backs off, its loop never takes part again. -/
theorem registry_agrees (config : Config) (actions : List Action) :
    (run config actions).loops.keys.Nodup ∧
      (∀ rule r, (run config actions).loops.get? rule = some r →
        (run config actions).isCancelled r.token = false ∧
          (∀ k rule' r', (run config (actions.take k)).loops.get? rule' = some r' → r'.generation = r.generation →
            rule' = rule ∧ r' = r) ∧
          ∃ v ∈ (run config actions).supervisors, v.rule.id = rule ∧ v.registration = r ∧ v.phase ≠ .leaving ∧
            ∀ w ∈ (run config actions).supervisors, w.generation = r.generation ∨ w.token = r.token → w = v) ∧
      ∀ v ∈ (run config actions).supervisors, (run config actions).loops.get? v.rule.id ≠ some v.registration →
        (run config actions).isCancelled v.token = true ∧
          (∀ rule r, (run config actions).loops.get? rule = some r → r.generation ≠ v.generation) ∧
          ((run config actions).renew v.generation).1 = none ∧
          (v.phase = .backingOff → ∀ more : List Action,
            (run config actions).NoPart v (more.foldl (act config) (run config actions))) := by
  have h := registry_run config actions
  refine ⟨Table.nodup_keys _, fun rule r hr => ⟨?_, fun k rule' r' hr' hg => ?_, ?_⟩, fun v hv hne => ?_⟩
  · exact h.live.isCancelled_eq_false hr
  · have h' := registry_run config (actions.take k)
    have hsplit : run config actions = (actions.drop k).foldl (act config) (run config (actions.take k)) := by
      rw [run, run, ← List.foldl_append, List.take_append_drop]
    rw [hsplit] at hr
    rcases get?_foldl_act config _ hr with hr | hlt
    · exact h'.eq_of_generation_eq hr hr' hg
    · have := (h'.live.loop_lt rule' r' hr').2
      omega
  · obtain ⟨v, hv, hrule, hreg, hphase⟩ := h.led rule r hr
    refine ⟨v, hv, hrule, hreg, hphase, fun w hw hsame => ?_⟩
    subst hreg
    rcases hsame with hg | ht
    · exact h.numbered.supervisor_eq hw hv hg
    · have hw' := (h.supervised w hw).resolve_left fun hc =>
        h.live.active rule _ hr (isCancelled_iff.mp (by rw [← ht]; exact hc))
      obtain rfl := h.live.distinct _ rule _ _ hw' hr ht
      rw [hr] at hw'
      exact h.numbered.supervisor_eq hw hv (congrArg Registration.generation (Option.some.inj hw')).symm
  · obtain ⟨hc, hgone⟩ := h.of_not_registered hv hne
    exact ⟨hc, hgone, renew_eq_none hgone, fun hp more => h.noPart hv hp hne config more⟩

end Scheduler

end Alerting
