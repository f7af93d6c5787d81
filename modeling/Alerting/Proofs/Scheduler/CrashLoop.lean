import Alerting.Proofs.Engine.Run
import Alerting.Proofs.Scheduler.Delay
import Alerting.Proofs.Scheduler.Registry
import Mathlib.Data.List.Chain
import Mathlib.Data.Nat.Find
import Mathlib.Order.Monotone.Basic

/-!
# Loops that panic as soon as they are started

A loop that panics at once whenever it is started, and is never stopped, panics again exactly when the delay before its
restart is over. What its supervisor hears in a run (`Scheduler.panicsOf`) is counted on from panic to panic
(`Scheduler.Counted.panicsOf`), so the first panic decides all delays: they are those of `Config.crashCount`
(`Scheduler.delays_of_atOnce`). Every number of panics occurs in a run (`Scheduler.exists_crashRun`).

The delay is itself the quiet time that the supervisor compares with the time after which panics are forgotten. A delay
that reaches that time is followed by the first delay again. So the delays never decrease exactly if none of them
reaches it, or already the first one does (`Scheduler.delays_never_decrease_iff`).
-/

namespace Alerting

namespace Config

variable {c : Config}

/-! ## The delays of a crash loop -/

/-- The panics that count after `k` more panics, each of which comes when the delay after the one before is over. -/
def crashCount (c : Config) : (k : Nat) → Nat
  | 0 => 1
  | k + 1 =>
    if c.restartBackoffReset ≤ c.restartBackoff (c.crashCount k) then 1 else min (c.crashCount k + 1) (Nat.pow 2 32 - 1)

/-- Every delay is over before the panics are forgotten. -/
def NeverForgets (c : Config) : Prop := ∀ n, 1 ≤ n → c.restartBackoff n < c.restartBackoffReset

/-- Already the first delay is as long as panics are remembered. -/
def ForgetsAtOnce (c : Config) : Prop := c.restartBackoffReset ≤ c.restartBackoff 1

theorem crashCount_bounds (c : Config) (k : Nat) : 1 ≤ c.crashCount k ∧ c.crashCount k ≤ Nat.pow 2 32 - 1 := by
  cases k with
  | zero => exact ⟨Nat.le_refl 1, (by decide : 1 ≤ Nat.pow 2 32 - 1)⟩
  | succ k =>
    rw [crashCount]
    split
    · decide
    · exact ⟨Nat.le_min.mpr ⟨Nat.le_add_left .., by decide⟩, Nat.min_le_right ..⟩

theorem NeverForgets.crashCount_le (h : c.NeverForgets) (k : Nat) : c.crashCount k ≤ c.crashCount (k + 1) := by
  obtain ⟨hone, hbound⟩ := c.crashCount_bounds k
  rw [crashCount, if_neg (Duration.not_le.mpr (h _ hone))]
  omega

theorem ForgetsAtOnce.crashCount_eq (h : c.ForgetsAtOnce) (k : Nat) : c.crashCount k = 1 := by
  cases k with
  | zero => rfl
  | succ k => rw [crashCount, if_pos (Duration.le_trans h (c.restartBackoff_mono (c.crashCount_bounds k).1))]

/-- As long as no delay was long enough, all panics count. -/
theorem crashCount_eq {k : Nat} (hk : k ≤ 21) (h : ∀ n, 1 ≤ n → n ≤ k → c.restartBackoff n < c.restartBackoffReset) :
    c.crashCount k = k + 1 := by
  induction k with
  | zero => rfl
  | succ k ih =>
    have hcount := ih (by omega) fun n h1 hn => h n h1 (by omega)
    rw [crashCount, hcount, if_neg (Duration.not_le.mpr (h (k + 1) (by omega) (Nat.le_refl _)))]
    have : 21 + 1 < Nat.pow 2 32 - 1 := by decide
    omega

/-- The earliest of the delays that are long enough comes before the delays stop to grow. -/
theorem exists_first_long (hn : ¬c.NeverForgets) :
    ∃ k, k ≤ 20 ∧ c.restartBackoffReset ≤ c.restartBackoff (k + 1) ∧
      ∀ n, 1 ≤ n → n ≤ k → c.restartBackoff n < c.restartBackoffReset := by
  have hlong : ∃ k, c.restartBackoffReset ≤ c.restartBackoff (k + 1) := by
    refine Classical.byContradiction fun hnone => hn fun n h1 => Duration.not_le.mp fun hle => hnone ⟨n - 1, ?_⟩
    rwa [Nat.sub_add_cancel h1]
  refine ⟨Nat.find hlong, ?_, Nat.find_spec hlong, ?_⟩
  · refine Decidable.byContradiction fun hgt => Nat.find_min hlong (m := 20) (by omega) ?_
    rw [← c.restartBackoff_of_le (by omega : 21 ≤ Nat.find hlong + 1)]
    exact Nat.find_spec hlong
  · intro n h1 hle
    have := Nat.find_min hlong (m := n - 1) (by omega)
    rw [Nat.sub_add_cancel h1] at this
    exact Duration.not_le.mp this

/-- **The delays of a crash loop never decrease exactly if none of them is long enough, or already the first one.** -/
theorem crash_delays_mono_iff (c : Config) :
    (∀ k, c.restartBackoff (c.crashCount k) ≤ c.restartBackoff (c.crashCount (k + 1))) ↔
      c.NeverForgets ∨ c.ForgetsAtOnce := by
  constructor
  · intro hmono
    refine Classical.byContradiction fun h => ?_
    obtain ⟨hn, ha⟩ := not_or.mp h
    obtain ⟨k, hk, hlong, hshort⟩ := exists_first_long hn
    -- the long delay comes after `k` more panics, and the first delay follows it
    have hcount := crashCount_eq (by omega : k ≤ 21) hshort
    have hnext : c.crashCount (k + 1) = 1 := by rw [crashCount, hcount, if_pos hlong]
    have hle := hmono k
    rw [hcount, hnext] at hle
    exact ha (Duration.le_trans hlong hle)
  · rintro (h | h) k
    · exact c.restartBackoff_mono (h.crashCount_le k)
    · rw [h.crashCount_eq, h.crashCount_eq]
      exact Nat.le_refl _

end Config

namespace Scheduler

/-! ## What a supervisor hears -/

/-- A panic of a loop that an action makes its supervisor hear of: the time and the count after it. -/
def heardBy (config : Config) (s : Scheduler) (generation : Nat) : Action → Option (Duration × Backoff)
  | .takePanic now g => if g = generation then (s.takePanic config now g).1.map fun (_, b) => (now, b) else none
  | _ => none

/-- The generation of a loop after an action; a renewed loop has a new one. -/
def followed (s : Scheduler) (generation : Nat) : Action → Nat
  | .renew g => if g = generation then (s.renew g).1.getD generation else generation
  | _ => generation

/-- The panics of a loop that its supervisor hears of in a run, the first one first. -/
def panicsOf (config : Config) (s : Scheduler) (generation : Nat) : List Action → List (Duration × Backoff)
  | [] => []
  | a :: more =>
    (s.heardBy config generation a).toList ++ panicsOf config (s.act config a) (s.followed generation a) more

/-- The loop panics at once whenever it is started: every panic after the first one comes when the delay after the one
before is over. -/
def AtOnce (config : Config) (panics : List (Duration × Backoff)) : Prop :=
  panics.IsChain fun x y => y.1.nanos = x.1.nanos + (x.2.delay config).nanos

/-- Every panic is counted on from the one before, and the first one from `b`. -/
def CountedOn (config : Config) : (b : Backoff) → List (Duration × Backoff) → Prop
  | _, [] => True
  | b, x :: panics => x.2 = b.record config x.1 ∧ CountedOn config x.2 panics

/-! ## What actions do to the counts -/

/-- The supervisors of one state have the counts that those of another one have, or are younger than it. -/
def SameCounts (s s' : Scheduler) : Prop :=
  ∀ w ∈ s'.supervisors,
    (∃ v ∈ s.supervisors, v.generation = w.generation ∧ v.backoff = w.backoff) ∨ s.nextGeneration ≤ w.generation

section SameCounts

variable {s s' : Scheduler}

theorem SameCounts.of_eq (h : s'.supervisors = s.supervisors) : SameCounts s s' :=
  fun w hw => .inl ⟨w, h ▸ hw, rfl, rfl⟩

theorem sameCounts_updateSupervisor (s : Scheduler) (generation : Nat) {f : Supervisor → Supervisor}
    (hf : ∀ v, (f v).generation = v.generation ∧ (f v).backoff = v.backoff) :
    SameCounts s (s.updateSupervisor generation f) := by
  intro w hw
  obtain ⟨v, hv, rfl⟩ := mem_updateSupervisor.mp hw
  refine .inl ⟨v, hv, ?_⟩
  split
  · exact ⟨(hf v).1.symm, (hf v).2.symm⟩
  · exact ⟨rfl, rfl⟩

theorem sameCounts_letGo (s : Scheduler) (generation : Nat) : SameCounts s (s.letGo generation) :=
  s.sameCounts_updateSupervisor generation fun _ => ⟨rfl, rfl⟩

theorem sameCounts_submit (s : Scheduler) (rule : Rule) : SameCounts s (s.submit rule).2 := by
  cases hv : rule.validate with
  | error e => rw [submit_of_invalid hv]; exact .of_eq rfl
  | ok =>
    cases hr : s.isRunning rule.id with
    | true => rw [submit_of_running hv hr]; exact .of_eq rfl
    | false =>
      rw [submit_eq_register hv hr]
      intro w hw
      rcases List.mem_append.mp hw with hw | hw
      · exact .inl ⟨w, hw, rfl, rfl⟩
      · rw [List.mem_singleton.mp hw]
        exact .inr (Nat.le_refl _)

theorem supervisors_stop (s : Scheduler) (rule : String) : (s.stop rule).2.supervisors = s.supervisors := by
  unfold stop
  split <;> rfl

theorem supervisors_forgetGuard (s : Scheduler) (rule : String) :
    (s.forgetGuard rule).supervisors = s.supervisors := by
  unfold forgetGuard
  split
  · split <;> rfl
  · rfl

theorem sameCounts_fail (s : Scheduler) (tick : Nat) (p : Panic) : SameCounts s (s.fail tick p) := by
  unfold fail
  split
  · split
    · exact .of_eq rfl
    · refine (s.endTick tick).sameCounts_updateSupervisor _ fun v => ?_
      split <;> exact ⟨rfl, rfl⟩
  · exact .of_eq rfl

theorem sameCounts_leave (s : Scheduler) (generation : Nat) : SameCounts s (s.leave generation) := by
  unfold leave
  split
  · split
    · exact s.sameCounts_letGo generation
    · exact .of_eq rfl
  · exact .of_eq rfl

theorem sameCounts_exit (s : Scheduler) (generation : Nat) : SameCounts s (s.exit generation) := by
  unfold exit
  split
  · intro w hw
    rw [supervisors_forgetGuard] at hw
    exact .inl ⟨w, (List.mem_filter.mp hw).1, rfl, rfl⟩
  · exact .of_eq rfl

/-- Only hearing of a panic changes a count, and only a renewal carries one over to a new generation. -/
theorem sameCounts_act (config : Config) (s : Scheduler) {a : Action} (hp : ∀ now g, a ≠ .takePanic now g)
    (hr : ∀ g, a ≠ .renew g) : SameCounts s (s.act config a) := by
  cases a with
  | submit rule => exact s.sameCounts_submit rule
  | stop rule => exact .of_eq (s.supervisors_stop rule)
  | restart rule =>
    intro w hw
    have h := (s.stop rule.id).2.sameCounts_submit rule w hw
    rw [supervisors_stop] at h
    rwa [show (s.stop rule.id).2.nextGeneration = s.nextGeneration by unfold stop; split <;> rfl] at h
  | stopAll => exact .of_eq rfl
  | fire | start | reconcile | finish | drop =>
    refine .of_eq ?_
    simp only [act, fire, start, reconcile, finish, drop]
    split
    · split <;> first | rfl | (split <;> rfl)
    · rfl
  | fail tick p => exact s.sameCounts_fail tick p
  | takePanic now g => exact absurd rfl (hp now g)
  | renew g => exact absurd rfl (hr g)
  | leave generation => exact s.sameCounts_leave generation
  | exit generation => exact s.sameCounts_exit generation
  | forgetGuard rule => exact .of_eq (s.supervisors_forgetGuard rule)

end SameCounts

/-! ## One loop in a run -/

/-- The generation was given out, and a supervisor that has it has the count `b`. -/
structure Counted (s : Scheduler) (generation : Nat) (b : Backoff) : Prop where
  numbered : s.Numbered
  lt : generation < s.nextGeneration
  count : ∀ v ∈ s.supervisors, v.generation = generation → v.backoff = b

section Counted

variable {config : Config} {s : Scheduler} {g : Nat} {b : Backoff}

theorem act_numbered (config : Config) (h : s.Numbered) (a : Action) :
    (s.act config a).Numbered ∧ s.nextGeneration ≤ (s.act config a).nextGeneration :=
  act_keeps_of (P := fun s' => s'.Numbered ∧ s.nextGeneration ≤ s'.nextGeneration) config a
    (fun _ hst ⟨hn, hle⟩ => ⟨hn.step hst, Nat.le_trans hle hst.next_le.2⟩) ⟨h, Nat.le_refl _⟩

theorem Counted.of_sameCounts (h : s.Counted g b) {a : Action} (hs : SameCounts s (s.act config a)) :
    (s.act config a).Counted g b := by
  obtain ⟨hn, hle⟩ := act_numbered config h.numbered a
  refine ⟨hn, Nat.lt_of_lt_of_le h.lt hle, fun w hw hg => ?_⟩
  rcases hs w hw with ⟨v, hv, hgv, hbv⟩ | hnew
  · exact hbv ▸ h.count v hv (hgv.trans hg)
  · exact absurd hnew (Nat.not_le.mpr (hg ▸ h.lt))

/-- A supervisor hears of a panic, or nothing happens. -/
theorem takePanic_cases (config : Config) (s : Scheduler) (now : Duration) (generation : Nat) :
    s.takePanic config now generation = (none, s) ∨
      ∃ p, ∃ v ∈ s.supervisors, v.generation = generation ∧
        s.takePanic config now generation = (some (p, v.backoff.record config now),
          (s.updateSupervisor generation fun u =>
            { u with backoff := v.backoff.record config now, phase := .backingOff }).abortTicks generation) := by
  unfold takePanic
  split
  · next hv =>
    obtain ⟨hm, hg⟩ := supervisor?_eq_some hv
    exact .inr ⟨_, _, hm, hg, rfl⟩
  · exact .inl rfl

/-- A loop is renewed under the next generation, or its supervisor keeps its generation and its count. -/
theorem renew_cases (s : Scheduler) (generation : Nat) :
    ((s.renew generation).1 = none ∧ SameCounts s (s.renew generation).2) ∨
      ∃ v ∈ s.supervisors, ∃ old, v.generation = generation ∧
        s.renew generation = (some s.nextGeneration, s.replaceLoop v old) := by
  unfold renew
  split
  · next hv =>
    obtain ⟨hm, hg⟩ := supervisor?_eq_some hv
    simp only at hg
    subst hg
    split
    · next old _ =>
      split
      · exact .inr ⟨_, hm, old, rfl, rfl⟩
      · exact .inl ⟨rfl, s.sameCounts_letGo _⟩
    · exact .inl ⟨rfl, s.sameCounts_letGo _⟩
  · exact .inl ⟨rfl, .of_eq rfl⟩

theorem Counted.takePanic (h : s.Counted g b) (config : Config) (now : Duration) (generation : Nat) :
    (s.act config (.takePanic now generation)).Counted g
        ((s.heardBy config g (.takePanic now generation)).elim b (·.2)) ∧
      ∀ x ∈ s.heardBy config g (.takePanic now generation), x.2 = b.record config x.1 := by
  obtain ⟨hn, hle⟩ := act_numbered config h.numbered (.takePanic now generation)
  have hlt := Nat.lt_of_lt_of_le h.lt hle
  simp only [heardBy]
  rcases takePanic_cases config s now generation with hnone | ⟨p, v, hv, hgv, heq⟩
  · simp only [act, hnone, Option.map_none, ite_self, Option.elim_none, Option.not_mem_none, false_imp_iff,
      implies_true, and_true]
    exact h
  · simp only [act, heq] at hn hlt ⊢
    by_cases hg : generation = g
    · have hcount := h.count v hv (hgv.trans hg)
      simp only [hg, if_true, Option.map_some, Option.elim_some, Option.mem_def, Option.some.injEq, forall_eq', hcount,
        and_true]
      refine ⟨hg ▸ hcount ▸ hn, hlt, fun w hw hgw => ?_⟩
      obtain ⟨u, hu, rfl⟩ := mem_updateSupervisor.mp hw
      split
      · rfl
      · next hne =>
        rw [if_neg hne] at hgw
        exact absurd (beq_iff_eq.mpr hgw) hne
    · simp only [hg, if_false, Option.elim_none, Option.not_mem_none, false_imp_iff, implies_true, and_true]
      refine ⟨hn, hlt, fun w hw hgw => ?_⟩
      obtain ⟨u, hu, rfl⟩ := mem_updateSupervisor.mp hw
      split at hgw
      · next hgu => exact absurd ((beq_iff_eq.mp hgu).symm.trans hgw) hg
      · next hgu => rw [if_neg hgu]; exact h.count u hu hgw

theorem Counted.renew (h : s.Counted g b) (config : Config) (generation : Nat) :
    (s.act config (.renew generation)).Counted (s.followed g (.renew generation)) b := by
  rcases renew_cases s generation with ⟨hnone, hsame⟩ | ⟨v, -, old, hgv, heq⟩
  · rw [show s.followed g (.renew generation) = g by simp [followed, hnone]]
    exact h.of_sameCounts hsame
  · have hn := (act_numbered config h.numbered (.renew generation)).1
    simp only [act, heq, followed, Option.getD_some] at hn ⊢
    refine ⟨hn, ?_, fun w hw hgw => ?_⟩
    · have := h.lt
      show _ < s.nextGeneration + 1
      split <;> omega
    · obtain ⟨u, hu, rfl⟩ := mem_updateSupervisor.mp hw
      have hu' := h.numbered.supervisor_lt u hu
      have hlt := h.lt
      split at hgw
      · next hgu =>
        rw [if_pos hgu]
        have hgu' : u.generation = generation := (beq_iff_eq.mp hgu).trans hgv
        split at hgw
        · next hg => exact h.count u hu (hgu'.trans hg)
        · exact absurd hgw (Nat.ne_of_gt hlt)
      · next hgu =>
        rw [if_neg hgu]
        split at hgw
        · exact absurd hgw (Nat.ne_of_lt hu')
        · exact h.count u hu hgw

/-- **What a supervisor hears of is counted on, and nothing else changes its count.** -/
theorem Counted.act (h : s.Counted g b) (config : Config) (a : Action) :
    (s.act config a).Counted (s.followed g a) ((s.heardBy config g a).elim b (·.2)) ∧
      ∀ x ∈ s.heardBy config g a, x.2 = b.record config x.1 := by
  have quiet : (∀ now g, a ≠ .takePanic now g) → (∀ g, a ≠ .renew g) →
      s.followed g a = g → s.heardBy config g a = none → _ := fun hp hr hf hh =>
    show (s.act config a).Counted (s.followed g a) ((s.heardBy config g a).elim b (·.2)) ∧
        ∀ x ∈ s.heardBy config g a, x.2 = b.record config x.1 by
      rw [hf, hh]
      exact ⟨h.of_sameCounts (sameCounts_act config s hp hr), fun _ hx => nomatch hx⟩
  cases a with
  | takePanic now generation => exact h.takePanic config now generation
  | renew generation => exact ⟨h.renew config generation, fun _ hx => nomatch hx⟩
  | _ => exact quiet nofun nofun rfl rfl

/-- **In a run, the panics of a loop are counted on from one to the next.** -/
theorem Counted.panicsOf (h : s.Counted g b) (config : Config) (more : List Action) :
    CountedOn config b (s.panicsOf config g more) := by
  induction more generalizing s g b with
  | nil => trivial
  | cons a more ih =>
    obtain ⟨hafter, hheard⟩ := h.act config a
    rw [Scheduler.panicsOf]
    cases hx : s.heardBy config g a with
    | none =>
      rw [hx] at hafter
      exact ih hafter
    | some x =>
      rw [hx] at hafter hheard
      exact ⟨hheard x rfl, ih hafter⟩

end Counted

/-! ## The delays of a loop that panics at once -/

section Delays

variable {config : Config}

/-- The count after a panic, the next of which comes when the delay is over. -/
theorem failures_record {x : Duration × Backoff} {k : Nat} (hlast : x.2.last = some x.1)
    (hk : x.2.failures = config.crashCount k) {now : Duration} (hnow : now.nanos = x.1.nanos + (x.2.delay config).nanos) :
    (x.2.record config now).failures = config.crashCount (k + 1) := by
  have hstale : x.2.isStale config now = decide (config.restartBackoffReset ≤ config.restartBackoff (config.crashCount k)) := by
    rw [Backoff.isStale, hlast, ← hk]
    simp only [decide_eq_decide]
    show config.restartBackoffReset.nanos ≤ now.nanos - x.1.nanos ↔ _
    rw [hnow, Nat.add_sub_cancel_left]
    rfl
  rw [Backoff.record, hstale, Config.crashCount, hk]
  by_cases hle : config.restartBackoffReset ≤ config.restartBackoff (config.crashCount k)
  · simp only [hle, decide_true, if_true]
    rfl
  · simp only [hle, decide_false, Bool.false_eq_true, if_false]

theorem delays_from {panics : List (Duration × Backoff)} : ∀ {x : Duration × Backoff} {k : Nat}, x.2.last = some x.1 →
    x.2.failures = config.crashCount k → CountedOn config x.2 panics → AtOnce config (x :: panics) →
    (x :: panics).map (·.2.delay config) =
      (List.range' k (panics.length + 1)).map fun i => config.restartBackoff (config.crashCount i) := by
  induction panics with
  | nil => intro x k _ hk _ _; simp [Backoff.delay, hk]
  | cons y panics ih =>
    intro x k hlast hk hcounted hatOnce
    obtain ⟨hy, hcounted⟩ := hcounted
    obtain ⟨hnow, hatOnce⟩ := List.isChain_cons_cons.mp hatOnce
    have hyk : y.2.failures = config.crashCount (k + 1) := hy ▸ failures_record hlast hk hnow
    have hrange : List.range' k (panics.length + 1 + 1) = k :: List.range' (k + 1) (panics.length + 1) := List.range'_succ
    rw [List.map_cons, ih (hy ▸ rfl) hyk hcounted hatOnce, List.length_cons, hrange, List.map_cons, Backoff.delay, hk]

/-- **The delays of a loop that panics at once are decided by its first panic.** -/
theorem delays_of_atOnce {panics : List (Duration × Backoff)} (hcounted : CountedOn config .fresh panics)
    (hatOnce : AtOnce config panics) :
    panics.map (·.2.delay config) =
      (List.range panics.length).map fun k => config.restartBackoff (config.crashCount k) := by
  cases panics with
  | nil => rfl
  | cons x panics =>
    obtain ⟨hx, hcounted⟩ := hcounted
    rw [List.range_eq_range']
    exact delays_from (k := 0) (hx ▸ rfl) (hx ▸ rfl) hcounted hatOnce

end Delays

/-! ## Every number of panics occurs -/

/-- The scheduler has one loop, which runs, and no ticks. -/
structure Alone (s : Scheduler) (v : Supervisor) : Prop where
  registry : s.Registry
  supervisors : s.supervisors = [v]
  looping : v.phase = .looping []
  ticks : s.ticks = []
  registered : s.loops.get? v.rule.id = some v.registration

/-- The first tick of a loop panics, its supervisor hears of it and starts the loop again. -/
def crash (s : Scheduler) (v : Supervisor) (now : Duration) : List Action :=
  [.fire v.generation, .start s.nextTick, .fail s.nextTick .wordless, .takePanic now v.generation, .renew v.generation]

section Alone

variable {config : Config} {s : Scheduler} {v : Supervisor}

theorem Alone.crash (h : Alone s v) (config : Config) (now : Duration) :
    ∃ s' v', Alone s' v' ∧ v'.backoff = v.backoff.record config now ∧
      ∀ more, s.panicsOf config v.generation (s.crash v now ++ more) =
        (now, v.backoff.record config now) :: s'.panicsOf config v'.generation more := by
  have hregistry := foldl_act_keeps (P := Registry) (fun hst => Registry.step hst) config (s.crash v now) h.registry
  have hactive : v.token ∉ s.cancelled := h.registry.live.active _ _ h.registered
  obtain ⟨-, hsup, hphase, hticks, hreg⟩ := h
  obtain ⟨rule, guard, token, generation, backoff, phase⟩ := v
  simp only [Supervisor.registration] at *
  subst hphase
  refine ⟨(s.crash _ now).foldl (Scheduler.act config) s,
    ⟨rule, guard, s.nextToken, s.nextGeneration, backoff.record config now, .looping []⟩, ⟨hregistry, ?_, rfl, ?_, ?_⟩,
    rfl, fun more => ?_⟩
  all_goals
    simp [Scheduler.crash, panicsOf, act, heardBy, followed, fire, start, fail, takePanic, renew, supervisor?, hasWaiting,
      tick?, holder, isCancelled, endTick, updateTick, updateSupervisor, issue, hsup, hticks, hreg, hactive,
      Supervisor.registration]

/-- **A loop that is alone can panic at once any number of times.** -/
theorem Alone.exists_crashRun (h : Alone s v) (config : Config) (n : Nat) (now : Duration) :
    ∃ more, (s.panicsOf config v.generation more).length = n ∧ AtOnce config (s.panicsOf config v.generation more) ∧
      ∀ x ∈ (s.panicsOf config v.generation more).head?, x.1 = now := by
  induction n generalizing s v now with
  | zero => exact ⟨[], rfl, .nil, nofun⟩
  | succ n ih =>
    obtain ⟨s', v', h', -, hcrash⟩ := h.crash config now
    obtain ⟨more, hlength, hatOnce, hhead⟩ := ih h' ⟨now.nanos + ((v.backoff.record config now).delay config).nanos⟩
    refine ⟨s.crash v now ++ more, ?_⟩
    rw [hcrash]
    refine ⟨congrArg (· + 1) hlength, List.isChain_cons.mpr ⟨fun y hy => ?_, hatOnce⟩, fun x hx => ?_⟩
    · rw [hhead y hy]
    · rw [← Option.some.inj hx]

end Alone

/-- The loop of a rule that was just submitted is alone. -/
theorem alone_submit (config : Config) {rule : Rule} (hv : rule.validate = .ok ()) :
    ∃ v, Alone (run config [.submit rule]) v ∧ v.backoff = .fresh := by
  have heq : run config [.submit rule] = initial.register rule := submit_eq_register hv rfl
  refine ⟨⟨rule, 0, 0, 1, .fresh, .looping []⟩, ⟨registry_run config _, ?_, rfl, ?_, ?_⟩, rfl⟩ <;> rw [heq]
  · rfl
  · rfl
  · exact Table.get?_insert_self ..

/-! ## The delays never decrease -/

/-- **The delays of loops that panic at once never decrease exactly if no delay is as long as panics are remembered, or
already the first one is.** -/
theorem delays_never_decrease_iff (config : Config) :
    (∀ before more : List Action, ∀ v ∈ (run config before).supervisors, v.backoff = .fresh →
      AtOnce config ((run config before).panicsOf config v.generation more) →
        (((run config before).panicsOf config v.generation more).map (·.2.delay config)).Pairwise (· ≤ ·)) ↔
      config.NeverForgets ∨ config.ForgetsAtOnce := by
  have delays : ∀ before more, ∀ v ∈ (run config before).supervisors, v.backoff = .fresh →
      AtOnce config ((run config before).panicsOf config v.generation more) →
        ((run config before).panicsOf config v.generation more).map (·.2.delay config) =
          (List.range ((run config before).panicsOf config v.generation more).length).map fun k =>
            config.restartBackoff (config.crashCount k) := by
    intro before more v hv hfresh hatOnce
    have hn := (registry_run config before).numbered
    have hcounted : (run config before).Counted v.generation .fresh :=
      ⟨hn, hn.supervisor_lt v hv, fun w hw hg => hn.supervisor_eq hw hv hg ▸ hfresh⟩
    exact delays_of_atOnce (hcounted.panicsOf config more) hatOnce
  rw [← config.crash_delays_mono_iff]
  constructor
  · intro hsorted k
    obtain ⟨v, halone, hfresh⟩ := alone_submit config (show Rule.errorCount.validate = .ok () from rfl)
    obtain ⟨more, hlength, hatOnce, -⟩ := halone.exists_crashRun config (k + 2) ⟨0⟩
    have hv : v ∈ (run config [.submit .errorCount]).supervisors := halone.supervisors ▸ List.mem_singleton_self v
    have h := hsorted _ more v hv hfresh hatOnce
    rw [delays _ more v hv hfresh hatOnce, hlength, List.pairwise_iff_getElem] at h
    simpa using h k (k + 1) (by simp) (by simp) (by omega)
  · intro hmono before more v hv hfresh hatOnce
    have hmono' : Monotone fun k => (config.restartBackoff (config.crashCount k)).nanos := monotone_nat_of_le_succ hmono
    rw [delays before more v hv hfresh hatOnce]
    exact List.pairwise_map.mpr (List.pairwise_lt_range.imp fun hlt => hmono' (Nat.le_of_lt hlt))

/-- Delays from 700 milliseconds on, and panics that are forgotten after a second. -/
def forgetful : Config := { Config.standard with restartBackoffBaseMs := 700, restartBackoffResetSecs := 1 }

/-- With a valid configuration, a loop that panics at once whenever it is started is restarted after 700 milliseconds,
then after 1400, and then after 700 again. -/
theorem delay_falls_back :
    let panics := (run forgetful [.submit .errorCount]).panicsOf forgetful 1
      [.fire 1, .start 0, .fail 0 .wordless, .takePanic ⟨0⟩ 1, .renew 1,
        .fire 2, .start 1, .fail 1 .wordless, .takePanic (.ofMillis 700) 2, .renew 2,
        .fire 3, .start 2, .fail 2 .wordless, .takePanic (.ofMillis 2100) 3]
    forgetful.validate = .ok () ∧ AtOnce forgetful panics ∧
      panics.map (·.2.delay forgetful) = [.ofMillis 700, .ofMillis 1400, .ofMillis 700] := by
  refine ⟨rfl, ?_, ?_⟩
  · unfold AtOnce
    decide
  · decide

end Scheduler

end Alerting
