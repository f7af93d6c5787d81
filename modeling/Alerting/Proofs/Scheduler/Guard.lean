import Alerting.Proofs.Scheduler.Step

/-!
# At most one tick of a rule

Whoever still has a use for the guard of a rule (`Holds`), a supervisor that has not let go of it or a tick, of the
present loop or of an old one, has the guard that is listed for the rule: a guard is forgotten only when nobody has a
use for it, and a new one is made only when none is listed. All ticks of a rule therefore wait for one guard, and of the
ticks at a guard at most one is past waiting (`Guarded`), whichever of them gets it next.

The ticks of one loop that wait are at most one, because a loop fires no tick while one of its ticks waits.
-/

namespace Alerting.Scheduler

/-- The guard of a rule is listed for it, and those of the other rules stay listed. -/
theorem guardOf_spec (s : Scheduler) (rule : String) :
    (s.guardOf rule).2.guards.get? rule = some (s.guardOf rule).1 ∧
      (∀ r guard, s.guards.get? r = some guard → (s.guardOf rule).2.guards.get? r = some guard) ∧
      (s.guardOf rule).2.ticks = s.ticks ∧ (s.guardOf rule).2.nextTick = s.nextTick := by
  cases hg : s.guards.get? rule with
  | some guard => simp [guardOf, hg]
  | none =>
    simp only [guardOf, hg]
    refine ⟨Table.get?_insert_self .., fun r guard hr => ?_, trivial, trivial⟩
    have hne : r ≠ rule := by
      rintro rfl
      simp [hg] at hr
    simpa [Table.get?_insert, hne] using hr

/-! ## Numbers are given out once -/

/-- No two ticks have one number and no two supervisors one generation, and the next ones are new. -/
structure Numbered (s : Scheduler) : Prop where
  ticks : s.ticks.Pairwise (·.id ≠ ·.id)
  tick_lt : ∀ t ∈ s.ticks, t.id < s.nextTick
  supervisors : s.supervisors.Pairwise (·.generation ≠ ·.generation)
  supervisor_lt : ∀ v ∈ s.supervisors, v.generation < s.nextGeneration

theorem eq_of_pairwise_ne {α β : Type} {f : α → β} {l : List α} (hp : l.Pairwise (f · ≠ f ·)) {a b : α} (ha : a ∈ l)
    (hb : b ∈ l) (hab : f a = f b) : a = b := by
  induction hp with
  | nil => cases ha
  | @cons x l hx _ ih =>
    rcases List.mem_cons.mp ha with rfl | ha' <;> rcases List.mem_cons.mp hb with rfl | hb'
    · rfl
    · exact absurd hab (hx b hb')
    · exact absurd hab.symm (hx a ha')
    · exact ih ha' hb'

theorem Numbered.tick_eq {s : Scheduler} (h : s.Numbered) {t u : Tick} (ht : t ∈ s.ticks) (hu : u ∈ s.ticks)
    (hid : t.id = u.id) : t = u := eq_of_pairwise_ne h.ticks ht hu hid

theorem Numbered.supervisor_eq {s : Scheduler} (h : s.Numbered) {v w : Supervisor} (hv : v ∈ s.supervisors)
    (hw : w ∈ s.supervisors) (hg : v.generation = w.generation) : v = w := eq_of_pairwise_ne h.supervisors hv hw hg

theorem Numbered.updateSupervisor {s : Scheduler} (h : s.Numbered) (generation : Nat) {f : Supervisor → Supervisor}
    (hf : ∀ v, (f v).generation = v.generation) : (s.updateSupervisor generation f).Numbered := by
  have hg : ∀ v : Supervisor, (if v.generation == generation then f v else v).generation = v.generation := by
    intro v
    split
    · exact hf v
    · rfl
  refine ⟨h.ticks, h.tick_lt, ?_, ?_⟩
  · simp only [Scheduler.updateSupervisor, List.pairwise_map, hg]
    exact h.supervisors
  · intro v hv
    obtain ⟨w, hw, rfl⟩ := List.mem_map.mp hv
    rw [hg]
    exact h.supervisor_lt w hw

theorem Numbered.mapTicks {s : Scheduler} (h : s.Numbered) {f : Tick → Tick} (hf : ∀ t, (f t).id = t.id) :
    Numbered { s with ticks := s.ticks.map f } := by
  refine ⟨?_, ?_, h.supervisors, h.supervisor_lt⟩
  · simp only [List.pairwise_map, hf]
    exact h.ticks
  · intro t ht
    obtain ⟨u, hu, rfl⟩ := List.mem_map.mp ht
    rw [hf]
    exact h.tick_lt u hu

theorem Numbered.abortTicks {s : Scheduler} (h : s.Numbered) (generation : Nat) :
    (s.abortTicks generation).Numbered := h.mapTicks fun t => by split <;> rfl

theorem Numbered.endTick {s : Scheduler} (h : s.Numbered) (id : Nat) : (s.endTick id).Numbered :=
  ⟨h.ticks.filter _, fun t ht => h.tick_lt t (List.mem_filter.mp ht).1, h.supervisors, h.supervisor_lt⟩

/-- A new loop in place of an old one has a generation of its own. -/
theorem Numbered.replaceLoop {s : Scheduler} (h : s.Numbered) (v : Supervisor) (old : Registration) :
    (s.replaceLoop v old).Numbered := by
  have hlt : ∀ {w : Supervisor}, w ∈ s.supervisors → w.generation ≠ s.nextGeneration := fun hw =>
    Nat.ne_of_lt (h.supervisor_lt _ hw)
  refine ⟨h.ticks, h.tick_lt, ?_, ?_⟩
  · simp only [Scheduler.replaceLoop, Scheduler.updateSupervisor, issue, List.pairwise_map]
    refine h.supervisors.imp_of_mem fun {a b} ha hb hab => ?_
    by_cases hav : a.generation = v.generation <;> by_cases hbv : b.generation = v.generation
    · exact absurd (hav.trans hbv.symm) hab
    · simpa [hav, hbv] using (hlt hb).symm
    · simpa [hav, hbv] using hlt ha
    · simpa [hav, hbv] using hab
  · intro w hw
    obtain ⟨u, hu, rfl⟩ := List.mem_map.mp hw
    have := h.supervisor_lt u hu
    show _ < s.nextGeneration + 1
    split
    · exact Nat.lt_succ_self _
    · omega

theorem Numbered.step {l : Label} {s s' : Scheduler} (hst : Step s l s') (h : s.Numbered) : s'.Numbered := by
  cases hst with
  | idle => exact h
  | refused => exact ⟨h.ticks, h.tick_lt, h.supervisors, fun v hv => Nat.lt_succ_of_lt (h.supervisor_lt v hv)⟩
  | registered rule _ _ =>
    obtain ⟨-, -, ht, hn⟩ := s.guardOf_spec rule.id
    refine ⟨by rw [register, ht]; exact h.ticks, by rw [register, ht, hn]; exact h.tick_lt, ?_, ?_⟩
    · refine List.pairwise_append.mpr ⟨h.supervisors, List.pairwise_singleton _ _, fun v hv w hw => ?_⟩
      rw [List.mem_singleton.mp hw]
      exact Nat.ne_of_lt (h.supervisor_lt v hv)
    · intro v hv
      rcases List.mem_append.mp hv with hv | hv
      · exact Nat.lt_succ_of_lt (h.supervisor_lt v hv)
      · rw [List.mem_singleton.mp hv]
        exact Nat.lt_succ_self _
  | stopped | stoppedAll | forgot => exact ⟨h.ticks, h.tick_lt, h.supervisors, h.supervisor_lt⟩
  | launched v _ _ _ _ =>
    refine ⟨?_, ?_, h.supervisors, h.supervisor_lt⟩
    · refine List.pairwise_append.mpr ⟨h.ticks, List.pairwise_singleton _ _, fun t ht u hu => ?_⟩
      rw [List.mem_singleton.mp hu]
      exact Nat.ne_of_lt (h.tick_lt t ht)
    · intro t ht
      rcases List.mem_append.mp ht with ht | ht
      · exact Nat.lt_succ_of_lt (h.tick_lt t ht)
      · rw [List.mem_singleton.mp ht]
        exact Nat.lt_succ_self _
  | started | entered => exact h.mapTicks fun t => by dsimp only; split <;> rfl
  | ended t _ => exact h.endTick t.id
  | heard => exact h.updateSupervisor _ fun v => by split <;> rfl
  | backedOff v =>
    refine Numbered.abortTicks (h.updateSupervisor v.generation ?_) v.generation
    intro u
    rfl
  | replaced v old => exact h.replaceLoop v old
  | letGo v => exact h.updateSupervisor _ fun _ => rfl
  | exited v _ _ =>
    exact ⟨h.ticks, h.tick_lt, h.supervisors.filter _, fun w hw => h.supervisor_lt w (List.mem_filter.mp hw).1⟩

/-! ## Who has a use for a guard -/

/-- A supervisor or a tick of a rule still has a use for a guard. -/
def Holds (s : Scheduler) (rule : String) (guard : Nat) : Prop :=
  (∃ v ∈ s.supervisors, v.phase ≠ .leaving ∧ v.rule.id = rule ∧ v.guard = guard) ∨
    ∃ t ∈ s.ticks, t.rule = rule ∧ t.guard = guard

/-- Everybody who has a use for the guard of a rule has the one that is listed, only one tick at a guard is past
waiting, and no two ticks of one loop wait. -/
structure Guarded (s : Scheduler) : Prop where
  numbered : s.Numbered
  held : ∀ rule guard, s.Holds rule guard → s.guards.get? rule = some guard
  alone : ∀ t ∈ s.ticks, ∀ u ∈ s.ticks, t.guard = u.guard → t.stage ≠ .waiting → u.stage ≠ .waiting → t = u
  waiting : s.ticks.Pairwise fun t u => t.generation = u.generation → t.stage = .waiting → u.stage ≠ .waiting

theorem isUsed_of_holds {s : Scheduler} {rule : String} {guard : Nat} (h : s.Holds rule guard) :
    s.isUsed guard = true := by
  rcases h with ⟨v, hv, hp, -, rfl⟩ | ⟨t, ht, -, rfl⟩
  · have : s.supervisors.any (fun w => w.guard == v.guard && w.phase != .leaving) = true :=
      List.any_eq_true.mpr ⟨v, hv, by simpa using hp⟩
    simp [isUsed, this]
  · have : s.ticks.any (·.guard == t.guard) = true := List.any_eq_true.mpr ⟨t, ht, by simp⟩
    simp [isUsed, this]

/-! ## Every step keeps the guards -/

section Keeps

variable {s : Scheduler}

/-- Changing ticks keeps the guards when nobody starts to wait and still only one tick at a guard is past waiting. -/
theorem Guarded.mapTicks (h : s.Guarded) {f : Tick → Tick}
    (hf : ∀ t, (f t).id = t.id ∧ (f t).rule = t.rule ∧ (f t).guard = t.guard ∧ (f t).generation = t.generation)
    (hw : ∀ t, (f t).stage = .waiting → t.stage = .waiting)
    (halone : ∀ t ∈ s.ticks, ∀ u ∈ s.ticks, t.guard = u.guard → (f t).stage ≠ .waiting → (f u).stage ≠ .waiting →
      t = u) :
    Guarded { s with ticks := s.ticks.map f } := by
  refine ⟨h.numbered.mapTicks fun t => (hf t).1, ?_, ?_, ?_⟩
  · rintro rule guard (hv | ⟨t, ht, rfl, rfl⟩)
    · exact h.held rule guard (.inl hv)
    · obtain ⟨u, hu, rfl⟩ := List.mem_map.mp ht
      exact h.held _ _ (.inr ⟨u, hu, (hf u).2.1.symm, (hf u).2.2.1.symm⟩)
  · intro t' ht' u' hu' hg hts hus
    obtain ⟨t, ht, rfl⟩ := List.mem_map.mp ht'
    obtain ⟨u, hu, rfl⟩ := List.mem_map.mp hu'
    rw [(hf t).2.2.1, (hf u).2.2.1] at hg
    exact congrArg f (halone t ht u hu hg hts hus)
  · rw [List.pairwise_map]
    refine h.waiting.imp fun {t u} htu hg ht hu => ?_
    rw [(hf t).2.2.2, (hf u).2.2.2] at hg
    exact htu hg (hw t ht) (hw u hu)

/-- A tick moves on past waiting and keeps the guards, if all others at its guard wait. -/
theorem Guarded.advance (h : s.Guarded) {t : Tick} (ht : t ∈ s.ticks) {stage : Stage} (hstage : stage ≠ .waiting)
    (halone : ∀ u ∈ s.ticks, u.guard = t.guard → u.stage ≠ .waiting → u = t) :
    (s.updateTick t.id fun t => { t with stage := stage }).Guarded := by
  refine h.mapTicks (fun u => ?_) (fun u hu => ?_) (fun u hu w hw hg hus hws => ?_)
  · split <;> exact ⟨rfl, rfl, rfl, rfl⟩
  · split at hu
    · exact absurd hu hstage
    · exact hu
  · by_cases hut : u.id = t.id <;> by_cases hwt : w.id = t.id
    · exact h.numbered.tick_eq hu hw (hut.trans hwt.symm)
    · obtain rfl := h.numbered.tick_eq hu ht hut
      exact (halone w hw hg.symm (by simpa [hwt] using hws)).symm
    · obtain rfl := h.numbered.tick_eq hw ht hwt
      exact halone u hu hg (by simpa [hut] using hus)
    · exact h.alone u hu w hw hg (by simpa [hut] using hus) (by simpa [hwt] using hws)

/-- Changing supervisors without their rules and guards keeps the guards when none takes its guard back. -/
theorem Guarded.mapSupervisors (h : s.Guarded) {s' : Scheduler} {f : Supervisor → Supervisor}
    (hs : s'.supervisors = s.supervisors.map f) (hn : s'.Numbered) (ht : s'.ticks = s.ticks)
    (hg : s'.guards = s.guards) (hf : ∀ v, (f v).rule = v.rule ∧ (f v).guard = v.guard)
    (hp : ∀ v ∈ s.supervisors, (f v).phase ≠ .leaving → v.phase ≠ .leaving) : s'.Guarded := by
  refine ⟨hn, ?_, by rw [ht]; exact h.alone, by rw [ht]; exact h.waiting⟩
  rintro rule guard (⟨v, hv, hl, rfl, rfl⟩ | ht')
  · rw [hs] at hv
    obtain ⟨w, hw, rfl⟩ := List.mem_map.mp hv
    rw [(hf w).1, (hf w).2, hg]
    exact h.held _ _ (.inl ⟨w, hw, hp w hw hl, rfl, rfl⟩)
  · rw [ht] at ht'
    rw [hg]
    exact h.held _ _ (.inr ht')

theorem Guarded.endTick (h : s.Guarded) (id : Nat) : (s.endTick id).Guarded := by
  refine ⟨h.numbered.endTick id, ?_, ?_, h.waiting.filter _⟩
  · rintro rule guard (hv | ⟨t, ht, hr⟩)
    · exact h.held rule guard (.inl hv)
    · exact h.held rule guard (.inr ⟨t, (mem_ticks_endTick.mp ht).1, hr⟩)
  · exact fun t ht u hu => h.alone t (mem_ticks_endTick.mp ht).1 u (mem_ticks_endTick.mp hu).1

/-- A new loop keeps the guards: it gets the one that is listed for its rule. -/
theorem Guarded.register (h : s.Guarded) {rule : Rule} (hn : (s.register rule).Numbered) :
    (s.register rule).Guarded := by
  obtain ⟨hself, hold, ht, -⟩ := s.guardOf_spec rule.id
  have hticks : (s.register rule).ticks = s.ticks := ht
  refine ⟨hn, ?_, by rw [hticks]; exact h.alone, by rw [hticks]; exact h.waiting⟩
  rintro r guard (⟨v, hv, hl, rfl, rfl⟩ | ⟨t, htm, rfl, rfl⟩)
  · rcases List.mem_append.mp hv with hv | hv
    · exact hold _ _ (h.held _ _ (.inl ⟨v, hv, hl, rfl, rfl⟩))
    · rw [List.mem_singleton.mp hv]
      exact hself
  · rw [hticks] at htm
    exact hold _ _ (h.held _ _ (.inr ⟨t, htm, rfl, rfl⟩))

/-- A new tick keeps the guards: it gets the guard of its supervisor, and no other one of its loop waits. -/
theorem Guarded.launch (h : s.Guarded) {v : Supervisor} {panics : List Panic} (hn : (s.launch v).Numbered)
    (hv : v ∈ s.supervisors) (hp : v.phase = .looping panics) (hw : s.hasWaiting v.generation = false) :
    (s.launch v).Guarded := by
  refine ⟨hn, ?_, ?_, ?_⟩
  · rintro rule guard (hs | ⟨t, ht, rfl, rfl⟩)
    · exact h.held rule guard (.inl hs)
    · rcases List.mem_append.mp ht with ht | ht
      · exact h.held _ _ (.inr ⟨t, ht, rfl, rfl⟩)
      · rw [List.mem_singleton.mp ht]
        exact h.held _ _ (.inl ⟨v, hv, by simp [hp], rfl, rfl⟩)
  · have hold : ∀ t ∈ (s.launch v).ticks, t.stage ≠ .waiting → t ∈ s.ticks := by
      intro t ht hst
      rcases List.mem_append.mp ht with ht | ht
      · exact ht
      · rw [List.mem_singleton.mp ht] at hst
        exact absurd rfl hst
    exact fun t ht u hu hg hts hus => h.alone t (hold t ht hts) u (hold u hu hus) hg hts hus
  · refine List.pairwise_append.mpr ⟨h.waiting, List.pairwise_singleton _ _, fun t ht u hu hg hwt _ => ?_⟩
    rw [List.mem_singleton.mp hu] at hg
    have hany : s.hasWaiting v.generation = true := List.any_eq_true.mpr ⟨t, ht, by simp [hg, hwt]⟩
    rw [hw] at hany
    cases hany

/-- A guard that is forgotten is missed by nobody. -/
theorem Guarded.forget (h : s.Guarded) {rule : String} {guard : Nat} (hg : s.guards.get? rule = some guard)
    (hu : s.isUsed guard = false) : Guarded { s with guards := s.guards.erase rule } := by
  refine ⟨⟨h.numbered.ticks, h.numbered.tick_lt, h.numbered.supervisors, h.numbered.supervisor_lt⟩, ?_, h.alone,
    h.waiting⟩
  intro r g hr
  have hr' : s.Holds r g := hr
  have hheld := h.held r g hr'
  have hne : r ≠ rule := by
    rintro rfl
    rw [hg] at hheld
    cases hheld
    rw [isUsed_of_holds hr'] at hu
    cases hu
  simpa [Table.get?_erase, hne] using hheld

/-- A supervisor that is changed alone was in the phase in which it is found. -/
theorem Guarded.updateSupervisor (h : s.Guarded) {s' : Scheduler} {v : Supervisor} (hv : v ∈ s.supervisors)
    {f : Supervisor → Supervisor} (hs : s'.supervisors = (s.updateSupervisor v.generation f).supervisors)
    (hn : s'.Numbered) (ht : s'.ticks = s.ticks) (hg : s'.guards = s.guards)
    (hf : ∀ u, (f u).rule = u.rule ∧ (f u).guard = u.guard)
    (hp : (f v).phase ≠ .leaving → v.phase ≠ .leaving) : s'.Guarded := by
  refine h.mapSupervisors hs hn ht hg (fun u => ?_) (fun u hu => ?_)
  · split
    · exact hf u
    · exact ⟨rfl, rfl⟩
  · by_cases hid : u.generation = v.generation
    · rw [h.numbered.supervisor_eq hu hv hid]
      simpa using hp
    · simp [hid]

/-- **Every step keeps the guards.** -/
theorem Guarded.step {l : Label} {s' : Scheduler} (hst : Step s l s') (h : s.Guarded) : s'.Guarded := by
  have hn := h.numbered.step hst
  cases hst with
  | idle => exact h
  | refused | stopped | stoppedAll => exact ⟨hn, h.held, h.alone, h.waiting⟩
  | registered rule _ _ => exact h.register hn
  | launched v panics hv hp hw => exact h.launch hn hv hp hw
  | started t ht _ hfree _ =>
    exact h.advance ht (by decide) fun u hu hg hus => absurd (holder_eq_none_iff.mp hfree u hu hg) hus
  | entered t ht hs _ => exact h.advance ht (by decide) fun u hu hg hus => h.alone u hu t ht hg hus (by simp [hs])
  | ended t _ => exact h.endTick t.id
  | heard generation f =>
    refine h.mapSupervisors rfl hn rfl rfl (fun v => ?_) (fun v _ => ?_)
    · split
      · dsimp only
        split <;> exact ⟨rfl, rfl⟩
      · exact ⟨rfl, rfl⟩
    · split
      · cases hp : v.phase <;> simp [hp]
      · exact id
  | backedOff v panics backoff hv hp =>
    have hb : (s.updateSupervisor v.generation fun u => { u with backoff := backoff, phase := .backingOff }).Guarded :=
      h.updateSupervisor hv rfl (h.numbered.updateSupervisor _ fun _ => rfl) rfl rfl (fun _ => ⟨rfl, rfl⟩) fun _ => by
        simp [hp]
    refine hb.mapTicks (fun t => ?_) (fun t => ?_) (fun t ht u hu hg hts hus => ?_)
    · split <;> exact ⟨rfl, rfl, rfl, rfl⟩
    · split <;> exact id
    · refine hb.alone t ht u hu hg ?_ ?_
      · split at hts <;> exact hts
      · split at hus <;> exact hus
  | replaced v old hv hp _ _ =>
    exact h.updateSupervisor hv rfl hn rfl rfl (fun _ => ⟨rfl, rfl⟩) fun _ => by simp [hp]
  | letGo v hv => exact h.updateSupervisor hv rfl hn rfl rfl (fun _ => ⟨rfl, rfl⟩) fun hl => absurd rfl hl
  | exited v hv hp =>
    refine ⟨hn, ?_, h.alone, h.waiting⟩
    rintro rule guard (⟨w, hw, hl, hr⟩ | ht)
    · exact h.held rule guard (.inl ⟨w, (List.mem_filter.mp hw).1, hl, hr⟩)
    · exact h.held rule guard (.inr ht)
  | forgot rule guard hg _ hu => exact h.forget hg hu

end Keeps

/-! ## The ticks of a rule -/

theorem guarded_initial : Guarded initial := by
  refine ⟨⟨.nil, ?_, .nil, ?_⟩, ?_, ?_, .nil⟩ <;> simp [initial, Holds]

theorem countP_le_one {α : Type} {p : α → Bool} {l : List α} (h : l.Pairwise fun a b => p a = true → p b ≠ true) :
    l.countP p ≤ 1 := by
  induction h with
  | nil => simp
  | @cons a l ha _ ih =>
    by_cases hp : p a
    · have h0 : l.countP p = 0 := List.countP_eq_zero.mpr fun b hb => ha b hb hp
      have h1 : (a :: l).countP p = l.countP p + 1 := List.countP_cons_of_pos hp
      omega
    · rw [List.countP_cons_of_neg hp]
      exact ih

/-- Two ticks of a rule that are past waiting are one tick: both have the guard of the rule. -/
theorem Guarded.tick_eq {s : Scheduler} (h : s.Guarded) {t u : Tick} (ht : t ∈ s.ticks) (hu : u ∈ s.ticks)
    (hr : t.rule = u.rule) (hts : t.stage ≠ .waiting) (hus : u.stage ≠ .waiting) : t = u := by
  have hgt := h.held _ _ (.inr ⟨t, ht, rfl, rfl⟩)
  have hgu := h.held _ _ (.inr ⟨u, hu, rfl, rfl⟩)
  rw [hr, hgu] at hgt
  exact h.alone t ht u hu (Option.some.inj hgt).symm hts hus

/-- **At most one tick of a rule is past waiting, at most one tick of a loop waits, and all who have a use for the
guard of a rule share the one that is listed.** -/
theorem at_most_one_tick (config : Config) (actions : List Action) :
    (∀ rule guard, (run config actions).Holds rule guard → (run config actions).guards.get? rule = some guard) ∧
      (∀ rule, ((run config actions).ticks.countP fun t => t.rule == rule && t.stage != .waiting) ≤ 1) ∧
      ∀ generation,
        ((run config actions).ticks.countP fun t => t.generation == generation && t.stage == .waiting) ≤ 1 := by
  have h : (run config actions).Guarded := run_keeps Guarded.step config actions guarded_initial
  refine ⟨h.held, fun rule => countP_le_one ?_, fun generation => countP_le_one ?_⟩
  · refine h.numbered.ticks.imp_of_mem fun {t u} ht hu hid hpt hpu => hid ?_
    simp only [Bool.and_eq_true, beq_iff_eq, bne_iff_ne] at hpt hpu
    rw [h.tick_eq ht hu (hpt.1.trans hpu.1.symm) hpt.2 hpu.2]
  · refine h.waiting.imp fun {t u} hw hpt hpu => ?_
    simp only [Bool.and_eq_true, beq_iff_eq] at hpt hpu
    exact hw (hpt.1.trans hpu.1.symm) hpt.2 hpu.2

end Alerting.Scheduler
