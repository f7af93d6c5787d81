import Alerting.Proofs.Engine.Run
import Alerting.Proofs.Scheduler.Registry
import Mathlib.Data.List.Induction

/-!
# Guards that are left behind

A supervisor that exits asks for the guard of its rule to be forgotten, and that is done if the rule has no loop and
nobody has a use for the guard. No one else asks. A tick goes on when the supervisor of its loop has exited, and when it
ends last its guard stays listed, for a rule that nobody works for (`LeftBehind`).

This is the only way: a guard is left behind exactly if a tick ended after the last supervisor of its rule and no loop
of the rule was registered since (`guards_left_behind`). What the actions do to a guard is read off their labels; only
the exit of a supervisor, which frees the guard and asks for its release at once, is looked at by itself.
-/

namespace Alerting.Scheduler

/-- A rule has no loop and no supervisor. -/
structure Unmanned (s : Scheduler) (rule : String) : Prop where
  unregistered : s.loops.get? rule = none
  unsupervised : ∀ v ∈ s.supervisors, v.rule.id ≠ rule

/-- Nobody works for a rule: it has no loop, no supervisor and no tick. -/
structure Deserted (s : Scheduler) (rule : String) : Prop extends Unmanned s rule where
  idle : ∀ t ∈ s.ticks, t.rule ≠ rule

/-- The guard of a rule is listed although nobody works for the rule. -/
structure LeftBehind (s : Scheduler) (rule : String) : Prop extends Deserted s rule where
  listed : rule ∈ s.guards.keys

/-- The action ends the last tick of a rule whose supervisors have exited. -/
structure EndsLast (config : Config) (s : Scheduler) (a : Action) (rule : String) : Prop where
  unsupervised : ∀ v ∈ s.supervisors, v.rule.id ≠ rule
  busy : ∃ t ∈ s.ticks, t.rule = rule
  ended : ∀ t ∈ (s.act config a).ticks, t.rule ≠ rule

/-- Once the last tick of a rule ended after its supervisors, and since then the rule had no loop, and nobody asked for
its guard to be forgotten. -/
def Stranded (config : Config) (actions : List Action) (rule : String) : Prop :=
  ∃ before a after, actions = before ++ a :: after ∧ EndsLast config (run config before) a rule ∧
    (∀ k, (run config (before ++ a :: after.take k)).isRunning rule = false) ∧ .forgetGuard rule ∉ after

/-! ## What steps do to guards, supervisors and ticks of a rule -/

section Steps

variable {l : Label} {s s' : Scheduler} {rule : String}

/-- The guards change when a loop is registered and when one is forgotten. -/
theorem Step.guards_cases (hst : Step s l s') :
    (s'.guards = s.guards ∧ s'.nextGuard = s.nextGuard) ∨
    (∃ r, l = .register r ∧ s'.guards = (s.guardOf r).2.guards ∧ s'.nextGuard = (s.guardOf r).2.nextGuard) ∨
    ∃ r, l = .forget r ∧ s'.guards = s.guards.erase r ∧ s'.nextGuard = s.nextGuard := by
  cases hst with
  | registered r => exact .inr (.inl ⟨r.id, rfl, rfl, rfl⟩)
  | forgot r => exact .inr (.inr ⟨r, rfl, rfl, rfl⟩)
  | _ => exact .inl ⟨rfl, rfl⟩

/-- A listed guard stays unless it is forgotten. -/
theorem Step.listed (hst : Step s l s') (hl : l ≠ .forget rule) (h : rule ∈ s.guards.keys) :
    rule ∈ s'.guards.keys := by
  rw [Table.mem_keys] at h ⊢
  rcases hst.guards_cases with ⟨hg, -⟩ | ⟨r, -, hg, -⟩ | ⟨r, rfl, hg, -⟩
  · rw [hg]
    exact h
  · obtain ⟨guard, hguard⟩ := Option.isSome_iff_exists.mp h
    rw [hg, (s.guardOf_spec r).2.1 rule guard hguard]
    rfl
  · have hne : rule ≠ r := by
      rintro rfl
      exact hl rfl
    rw [hg, Table.get?_erase, if_neg hne]
    exact h

/-- A guard is listed anew only when a loop of its rule is registered. -/
theorem Step.of_listed (hst : Step s l s') (hl : l ≠ .register rule) (h : rule ∈ s'.guards.keys) :
    rule ∈ s.guards.keys := by
  rw [Table.mem_keys] at h ⊢
  rcases hst.guards_cases with ⟨hg, -⟩ | ⟨r, rfl, hg, -⟩ | ⟨r, -, hg, -⟩
  · rwa [hg] at h
  · have hne : rule ≠ r := by
      rintro rfl
      exact hl rfl
    rw [hg] at h
    unfold guardOf at h
    split at h
    · exact h
    · rwa [Table.get?_insert, if_neg hne] at h
  · rw [hg, Table.get?_erase] at h
    split at h
    · cases h
    · exact h

/-- A rule keeps a supervisor until one exits. -/
theorem Step.supervised (hst : Step s l s') (hl : l ≠ .exit) (h : ∃ v ∈ s.supervisors, v.rule.id = rule) :
    ∃ v ∈ s'.supervisors, v.rule.id = rule := by
  obtain ⟨v, hv, hr⟩ := h
  have mapped : ∀ {f : Supervisor → Supervisor}, (∀ u, (f u).rule = u.rule) →
      ∃ w ∈ s.supervisors.map f, w.rule.id = rule := by
    intro f hf
    exact ⟨f v, List.mem_map_of_mem hv, by rw [hf]; exact hr⟩
  cases hst with
  | exited => exact absurd rfl hl
  | registered => exact ⟨v, List.mem_append_left _ hv, hr⟩
  | heard =>
    refine mapped fun u => ?_
    split
    · dsimp only
      split <;> rfl
    · rfl
  | backedOff | replaced | letGo =>
    refine mapped fun u => ?_
    split <;> rfl
  | _ => exact ⟨v, hv, hr⟩

/-- A rule keeps a tick until one ends. -/
theorem Step.busy (hst : Step s l s') (hl : l ≠ .endTick) (h : ∃ t ∈ s.ticks, t.rule = rule) :
    ∃ t ∈ s'.ticks, t.rule = rule := by
  obtain ⟨t, ht, hr⟩ := h
  have mapped : ∀ {f : Tick → Tick}, (∀ u, (f u).rule = u.rule) → ∃ u ∈ s.ticks.map f, u.rule = rule := by
    intro f hf
    exact ⟨f t, List.mem_map_of_mem ht, by rw [hf]; exact hr⟩
  cases hst with
  | ended => exact absurd rfl hl
  | registered r => exact ⟨t, (s.guardOf_spec r.id).2.2.1 ▸ ht, hr⟩
  | launched => exact ⟨t, List.mem_append_left _ ht, hr⟩
  | started | entered | backedOff =>
    refine mapped fun u => ?_
    split <;> rfl
  | _ => exact ⟨t, ht, hr⟩

/-- A rule without loop and supervisors gets none unless a loop of it is registered. -/
theorem Unmanned.step (h : s.Unmanned rule) (hn : s.Numbered) (hst : Step s l s') (hl : l ≠ .register rule) :
    s'.Unmanned rule := by
  have hloops := hst.unregistered hl h.unregistered
  refine ⟨hloops, fun w hw hr => ?_⟩
  rcases hst.supervisor_cases hn hw with ⟨v, hv, hgo⟩ | ⟨-, hnew⟩
  · exact h.unsupervised v hv (by rw [← hgo.rule]; exact hr)
  · rw [hr, hloops] at hnew
    cases hnew

/-- Nobody begins to work for a rule unless a loop of it is registered. -/
theorem Deserted.step (h : s.Deserted rule) (hn : s.Numbered) (hst : Step s l s') (hl : l ≠ .register rule) :
    s'.Deserted rule := by
  refine ⟨h.toUnmanned.step hn hst hl, fun t ht hr => ?_⟩
  rcases hst.tick_cases ht with ⟨u, hu, -, hu', -⟩ | ⟨v, hv, -, hv', -, -⟩
  · exact h.idle u hu (hu'.symm.trans hr)
  · exact h.unsupervised v hv (hv'.symm.trans hr)

end Steps

/-! ## Every guard belongs to one rule -/

/-- Listed guards were given out, each for one rule. -/
structure OwnGuards (s : Scheduler) : Prop where
  guard_lt : ∀ rule guard, s.guards.get? rule = some guard → guard < s.nextGuard
  distinct : ∀ rule rule' guard, s.guards.get? rule = some guard → s.guards.get? rule' = some guard → rule = rule'

theorem OwnGuards.step {l : Label} {s s' : Scheduler} (hst : Step s l s') (h : s.OwnGuards) : s'.OwnGuards := by
  rcases hst.guards_cases with ⟨hg, hn⟩ | ⟨r, -, hg, hn⟩ | ⟨r, -, hg, hn⟩
  · exact ⟨by rw [hg, hn]; exact h.guard_lt, by rw [hg]; exact h.distinct⟩
  · cases hr : s.guards.get? r with
    | some guard =>
      simp only [guardOf, hr] at hg hn
      exact ⟨by rw [hg, hn]; exact h.guard_lt, by rw [hg]; exact h.distinct⟩
    | none =>
      simp only [guardOf, hr] at hg hn
      -- the new guard is the next number, and those that are listed are below it
      have hcases : ∀ rule guard, s'.guards.get? rule = some guard →
          rule = r ∧ guard = s.nextGuard ∨ s.guards.get? rule = some guard ∧ guard < s.nextGuard := by
        intro rule guard hget
        rw [hg, Table.get?_insert] at hget
        split at hget
        · next hk => exact .inl ⟨hk, (Option.some.inj hget).symm⟩
        · exact .inr ⟨hget, h.guard_lt rule guard hget⟩
      constructor
      · intro rule guard hget
        rcases hcases rule guard hget with ⟨-, rfl⟩ | ⟨-, hlt⟩ <;> omega
      · intro rule rule' guard hget hget'
        rcases hcases rule guard hget with ⟨rfl, rfl⟩ | ⟨hold, hlt⟩ <;>
          rcases hcases rule' _ hget' with ⟨rfl, he⟩ | ⟨hold', hlt'⟩
        · rfl
        · omega
        · omega
        · exact h.distinct rule rule' guard hold hold'
  · have hcases : ∀ rule guard, s'.guards.get? rule = some guard → s.guards.get? rule = some guard := by
      intro rule guard hget
      rw [hg, Table.get?_erase] at hget
      split at hget
      · cases hget
      · exact hget
    constructor
    · intro rule guard hget
      rw [hn]
      exact h.guard_lt rule guard (hcases rule guard hget)
    · intro rule rule' guard hget hget'
      exact h.distinct rule rule' guard (hcases rule guard hget) (hcases rule' guard hget')

/-- What every run keeps of guards, supervisors and ticks. -/
structure Sound (s : Scheduler) : Prop where
  registry : s.Registry
  guarded : s.Guarded
  own : s.OwnGuards

theorem Sound.step {l : Label} {s s' : Scheduler} (hst : Step s l s') (h : s.Sound) : s'.Sound :=
  ⟨h.registry.step hst, h.guarded.step hst, h.own.step hst⟩

theorem sound_run (config : Config) (actions : List Action) : (run config actions).Sound :=
  run_keeps Sound.step config actions
    ⟨registry_initial, guarded_initial, by simp [initial], by simp [initial]⟩

/-- Who uses a guard uses it for some rule. -/
theorem holds_of_isUsed {s : Scheduler} {guard : Nat} (h : s.isUsed guard = true) : ∃ rule, s.Holds rule guard := by
  rcases Bool.or_eq_true_iff.mp h with h | h
  · obtain ⟨v, hv, hp⟩ := List.any_eq_true.mp h
    simp only [Bool.and_eq_true, beq_iff_eq, bne_iff_ne] at hp
    exact ⟨v.rule.id, .inl ⟨v, hv, hp.2, rfl, hp.1⟩⟩
  · obtain ⟨t, ht, hg⟩ := List.any_eq_true.mp h
    exact ⟨t.rule, .inr ⟨t, ht, rfl, by simpa using hg⟩⟩

theorem Deserted.not_holds {s : Scheduler} {rule : String} (h : s.Deserted rule) (guard : Nat) :
    ¬s.Holds rule guard := by
  rintro (⟨v, hv, -, hr, -⟩ | ⟨t, ht, hr, -⟩)
  · exact h.unsupervised v hv hr
  · exact h.idle t ht hr

/-- **The guard of a rule that nobody works for is forgotten when somebody asks for that.** -/
theorem Sound.forgetGuard {s : Scheduler} (h : s.Sound) {rule : String} (hd : s.Deserted rule) :
    rule ∉ (s.forgetGuard rule).guards.keys := by
  rw [Table.mem_keys]
  unfold Scheduler.forgetGuard
  split
  · next guard hg =>
    have hunused : s.isUsed guard = false := by
      rw [← Bool.not_eq_true]
      intro hu
      obtain ⟨rule', hholds⟩ := holds_of_isUsed hu
      obtain rfl := h.own.distinct rule rule' guard hg (h.guarded.held rule' guard hholds)
      exact hd.not_holds guard hholds
    rw [isRunning_eq_false_iff.mpr hd.unregistered, hunused]
    simp [Table.get?_erase]
  · next hg => simp [hg]

/-! ## What actions do to the guard of a rule that nobody works for -/

section Actions

variable {config : Config} {s : Scheduler} {a : Action} {rule : String}

/-- A submission of a rule without a loop changes nothing, or the rule has a loop then. -/
theorem submit_cases (r : Rule) (h : s.loops.get? r.id = none) :
    (s.submit r).2 = s ∨ (s.submit r).2.isRunning r.id = true := by
  cases hv : r.validate with
  | error e => exact .inl (by rw [submit_of_invalid hv])
  | ok =>
    refine .inr ?_
    rw [submit_eq_register hv (isRunning_eq_false_iff.mpr h)]
    simp [isRunning, Table.contains, register]

theorem stop_of_unregistered (h : s.loops.get? rule = none) : (s.stop rule).2 = s := by
  simp [stop, h]

/-- An action of a rule without a loop that could register one does not, if the rule has none afterwards. -/
theorem act_eq_of_does_register (h : s.loops.get? rule = none) (hr : (s.act config a).isRunning rule = false)
    (ha : a.Does (.register rule)) : s.act config a = s := by
  obtain ⟨r, rfl, rfl | rfl⟩ := Action.of_does_register ha
  · exact (submit_cases r h).resolve_right (by simpa [act] using hr)
  · have he : s.act config (.restart r) = (s.submit r).2 := by
      simp only [act, restart]
      rw [stop_of_unregistered h]
    rw [he] at hr ⊢
    exact (submit_cases r h).resolve_right (by simpa using hr)

/-- What every step but a registration of a rule keeps, an action keeps if the rule has no loop before and after. -/
theorem act_keeps_of_unregistered {P : Scheduler → Prop} (h : s.loops.get? rule = none)
    (hr : (s.act config a).isRunning rule = false)
    (keeps : ∀ {l s s'}, l ≠ .register rule → Step s l s' → P s → P s') (hs : P s) : P (s.act config a) := by
  by_cases ha : a.Does (.register rule)
  · rw [act_eq_of_does_register h hr ha]
    exact hs
  · refine act_keeps_of config a (fun hl hst => keeps ?_ hst) hs
    rintro rfl
    exact ha hl

theorem Unmanned.act (h : s.Unmanned rule) (hs : s.Sound) (hr : (s.act config a).isRunning rule = false) :
    (s.act config a).Unmanned rule :=
  (act_keeps_of_unregistered (P := fun s => s.Unmanned rule ∧ s.Sound) h.unregistered hr
    (fun hl hst ⟨h, hs⟩ => ⟨h.step hs.registry.numbered hst hl, hs.step hst⟩) ⟨h, hs⟩).1

/-- **A rule that nobody works for is left alone until a loop of it is registered.** -/
theorem Deserted.act (h : s.Deserted rule) (hs : s.Sound) (hr : (s.act config a).isRunning rule = false) :
    (s.act config a).Deserted rule :=
  (act_keeps_of_unregistered (P := fun s => s.Deserted rule ∧ s.Sound) h.unregistered hr
    (fun hl hst ⟨h, hs⟩ => ⟨h.step hs.registry.numbered hst hl, hs.step hst⟩) ⟨h, hs⟩).1

/-- A supervisor that exits asks for the guard of its rule to be forgotten. -/
theorem exit_cases (s : Scheduler) (generation : Nat) :
    s.exit generation = s ∨ ∃ v ∈ s.supervisors, v.phase = .leaving ∧
      s.exit generation =
        { s with supervisors := s.supervisors.filter (·.generation != v.generation) }.forgetGuard v.rule.id := by
  cases hv : s.supervisor? generation with
  | none => exact .inl (by simp [exit, hv])
  | some v =>
    obtain ⟨hm, rfl⟩ := supervisor?_eq_some hv
    by_cases hp : v.phase = .leaving
    · refine .inr ⟨v, hm, hp, ?_⟩
      obtain ⟨rule, guard, token, generation, backoff, phase⟩ := v
      cases hp
      simp [exit, hv]
    · refine .inl ?_
      unfold exit
      split
      · next he =>
        rw [hv] at he
        exact absurd (by rw [Option.some.inj he]) hp
      · rfl

/-- The guard of a rule without supervisors stays listed until somebody asks for it to be forgotten. -/
theorem listed_act (h : rule ∈ s.guards.keys) (hv : ∀ v ∈ s.supervisors, v.rule.id ≠ rule)
    (ha : a ≠ .forgetGuard rule) : rule ∈ (s.act config a).guards.keys := by
  by_cases hdoes : a.Does (.forget rule)
  · cases a with
    | forgetGuard r =>
      simp only [Action.Does, Label.forget.injEq] at hdoes
      exact absurd (by rw [hdoes]) ha
    | exit generation =>
      show rule ∈ (s.exit generation).guards.keys
      rcases s.exit_cases generation with he | ⟨v, hm, -, he⟩ <;> rw [he]
      · exact h
      · -- the guard that is asked for is that of another rule
        refine forgetGuard_keeps (P := fun s => rule ∈ s.guards.keys) _ (fun hst hl => hst.listed ?_ hl) h
        intro hforget
        exact hv v hm (Label.forget.inj hforget)
    | _ => simp [Action.Does] at hdoes
  · refine act_keeps_of (P := fun s => rule ∈ s.guards.keys) config a (fun hl hst h => hst.listed ?_ h) h
    rintro rfl
    exact hdoes hl

/-- A guard that is left behind stays so until a loop of its rule is registered or somebody asks for it to be
forgotten. -/
theorem LeftBehind.act (h : s.LeftBehind rule) (hs : s.Sound) (hr : (s.act config a).isRunning rule = false)
    (ha : a ≠ .forgetGuard rule) : (s.act config a).LeftBehind rule :=
  ⟨h.toDeserted.act hs hr, listed_act h.listed h.unsupervised ha⟩

theorem of_listed_submit {r : Rule} (h : rule ∈ (s.submit r).2.guards.keys)
    (hr : (s.submit r).2.isRunning r.id = false) : rule ∈ s.guards.keys := by
  cases hv : r.validate with
  | error e => rwa [submit_of_invalid hv] at h
  | ok =>
    cases hrun : s.isRunning r.id with
    | true => rwa [submit_of_running hv hrun] at h
    | false =>
      rcases submit_cases r (isRunning_eq_false_iff.mp hrun) with he | hnow
      · rwa [he] at h
      · rw [hr] at hnow
        cases hnow

/-- A guard that is listed after an action was listed before, if its rule has no loop. -/
theorem of_listed_act (h : rule ∈ (s.act config a).guards.keys) (hr : (s.act config a).isRunning rule = false) :
    rule ∈ s.guards.keys := by
  by_cases hdoes : a.Does (.register rule)
  · obtain ⟨r, rfl, rfl | rfl⟩ := Action.of_does_register hdoes
    · exact of_listed_submit h hr
    · have hstop : r.id ∈ (s.stop r.id).2.guards.keys := of_listed_submit h hr
      unfold stop at hstop
      split at hstop <;> exact hstop
  · refine act_keeps_of (P := fun s' => rule ∈ s'.guards.keys → rule ∈ s.guards.keys) config a ?_ id h
    intro l s₁ s₂ hl hst hold hlisted
    refine hold (hst.of_listed ?_ hlisted)
    rintro rfl
    exact hdoes hl

theorem deserted_forgetGuard {r : String} : (s.forgetGuard r).Deserted rule ↔ s.Deserted rule := by
  unfold forgetGuard
  split
  · split
    · rfl
    · exact ⟨fun h => ⟨⟨h.unregistered, h.unsupervised⟩, h.idle⟩, fun h => ⟨⟨h.unregistered, h.unsupervised⟩, h.idle⟩⟩
  · rfl

/-- **The exit of its last supervisor leaves no guard behind.** -/
theorem Sound.not_leftBehind_exit (h : s.Sound) {w : Supervisor} (hw : w ∈ s.supervisors) (generation : Nat) :
    ¬(s.exit generation).LeftBehind w.rule.id := by
  intro hleft
  rcases s.exit_cases generation with he | ⟨v, hv, hp, he⟩ <;> rw [he] at hleft
  · exact hleft.unsupervised w hw rfl
  · have hd := deserted_forgetGuard.mp hleft.toDeserted
    by_cases hgen : w.generation = v.generation
    · obtain rfl := h.registry.numbered.supervisor_eq hw hv hgen
      exact (h.step (.exited s w hw hp)).forgetGuard hd hleft.listed
    · exact hd.unsupervised w (List.mem_filter.mpr ⟨hw, by simpa using hgen⟩) rfl

/-- A rule without supervisors has no loop. -/
theorem Sound.unmanned (h : s.Sound) (hsup : ∀ v ∈ s.supervisors, v.rule.id ≠ rule) : s.Unmanned rule := by
  refine ⟨?_, hsup⟩
  cases hr : s.loops.get? rule with
  | none => rfl
  | some r =>
    obtain ⟨v, hv, hid, -⟩ := h.registry.led rule r hr
    exact absurd hid (hsup v hv)

/-- **A guard comes to be left behind when the last tick of its rule ends after the supervisors.** -/
theorem Sound.endsLast (h : s.Sound) (hleft : (s.act config a).LeftBehind rule) (hn : ¬s.LeftBehind rule) :
    EndsLast config s a rule := by
  have hsup : ∀ v ∈ s.supervisors, v.rule.id ≠ rule := by
    rintro v hv rfl
    by_cases hdoes : a.Does .exit
    · cases a with
      | exit generation => exact h.not_leftBehind_exit hv generation hleft
      | _ => simp [Action.Does] at hdoes
    · obtain ⟨w, hw, hr⟩ := act_keeps_of (P := fun s => ∃ w ∈ s.supervisors, w.rule.id = v.rule.id) config a
        (fun hl hst h => hst.supervised (by rintro rfl; exact hdoes hl) h) ⟨v, hv, rfl⟩
      exact hleft.unsupervised w hw hr
  have hlisted : rule ∈ s.guards.keys :=
    of_listed_act hleft.listed (isRunning_eq_false_iff.mpr hleft.unregistered)
  refine ⟨hsup, ?_, hleft.idle⟩
  by_contra hidle
  refine hn ⟨⟨h.unmanned hsup, fun t ht hr => ?_⟩, hlisted⟩
  exact hidle ⟨t, ht, hr⟩

/-- **When the last tick of a rule ends after the supervisors, the guard is left behind.** -/
theorem EndsLast.leftBehind (he : EndsLast config s a rule) (h : s.Sound)
    (hr : (s.act config a).isRunning rule = false) : (s.act config a).LeftBehind rule := by
  obtain ⟨t, ht, htr⟩ := he.busy
  have ha : a ≠ .forgetGuard rule := by
    rintro rfl
    obtain ⟨u, hu, hur⟩ := forgetGuard_keeps (P := fun s => ∃ u ∈ s.ticks, u.rule = rule) rule
      (fun hst h => hst.busy nofun h) ⟨t, ht, htr⟩
    exact he.ended u hu hur
  have hlisted : rule ∈ s.guards.keys := by
    rw [Table.mem_keys, h.guarded.held rule t.guard (.inr ⟨t, ht, htr, rfl⟩)]
    rfl
  exact ⟨⟨(h.unmanned he.unsupervised).act h hr, he.ended⟩, listed_act hlisted he.unsupervised ha⟩

end Actions

/-! ## Runs -/

theorem run_append_singleton (config : Config) (actions : List Action) (a : Action) :
    run config (actions ++ [a]) = (run config actions).act config a := by
  simp [run]

theorem run_append (config : Config) (before more : List Action) :
    run config (before ++ more) = more.foldl (act config) (run config before) := by
  simp [run]

/-- A guard that is left behind stays so as long as its rule has no loop and nobody asks for it to be forgotten. -/
theorem LeftBehind.more {config : Config} {rule : String} : ∀ {after : List Action} {s : Scheduler},
    s.LeftBehind rule → s.Sound → (∀ k, ((after.take k).foldl (Scheduler.act config) s).isRunning rule = false) →
      .forgetGuard rule ∉ after → (after.foldl (Scheduler.act config) s).LeftBehind rule
  | [], _, h, _, _, _ => h
  | a :: after, s, h, hs, hr, hf => by
    have ha : a ≠ .forgetGuard rule := by
      rintro rfl
      exact hf List.mem_cons_self
    have h₁ : (s.act config a).LeftBehind rule := h.act hs (hr 1) ha
    have hs₁ : (s.act config a).Sound := act_keeps_of config a (fun _ => Sound.step) hs
    exact h₁.more hs₁ (fun k => hr (k + 1)) fun hm => hf (List.mem_cons_of_mem _ hm)

theorem Stranded.leftBehind {config : Config} {actions : List Action} {rule : String}
    (h : Stranded config actions rule) : (run config actions).LeftBehind rule := by
  obtain ⟨before, a, after, rfl, hends, hr, hf⟩ := h
  have hs := sound_run config before
  have hr' : ∀ k, ((after.take k).foldl (act config) ((run config before).act config a)).isRunning rule = false := by
    intro k
    have := hr k
    rwa [run_append] at this
  rw [run_append]
  exact (hends.leftBehind hs (hr' 0)).more (act_keeps_of config a (fun _ => Sound.step) hs) hr' hf

theorem LeftBehind.stranded {config : Config} {rule : String} (actions : List Action)
    (h : (run config actions).LeftBehind rule) : Stranded config actions rule := by
  induction actions using List.reverseRecOn with
  | nil => exact absurd h.listed (by simp [run, initial, Table.keys, Table.empty])
  | append_singleton actions a ih =>
    rw [run_append_singleton] at h
    have hrun := isRunning_eq_false_iff.mpr h.unregistered
    by_cases hbefore : (run config actions).LeftBehind rule
    · obtain ⟨before, b, after, rfl, hends, hr, hf⟩ := ih hbefore
      refine ⟨before, b, after ++ [a], by simp, hends, fun k => ?_, ?_⟩
      · rcases Nat.lt_or_ge after.length k with hk | hk
        · rw [List.take_of_length_le (by simp; omega), ← List.cons_append, ← List.append_assoc,
            run_append_singleton]
          exact hrun
        · rw [List.take_append_of_le_length hk]
          exact hr k
      · simp only [List.mem_append, List.mem_singleton, not_or]
        refine ⟨hf, ?_⟩
        rintro rfl
        exact (sound_run config _).forgetGuard hbefore.toDeserted h.listed
    · refine ⟨actions, a, [], rfl, (sound_run config actions).endsLast h hbefore, fun k => ?_, List.not_mem_nil⟩
      rw [List.take_nil, run_append_singleton]
      exact hrun

/-- **A guard is left behind exactly if the last tick of its rule ended after the supervisors and the rule had no loop
since.** So when nobody works any more, guards are listed exactly if that happened to a rule. -/
theorem guards_left_behind (config : Config) (actions : List Action) :
    (∀ rule, (run config actions).LeftBehind rule ↔ Stranded config actions rule) ∧
      ((run config actions).loops.keys = [] → (run config actions).supervisors = [] →
        (run config actions).ticks = [] →
          ∀ rule, rule ∈ (run config actions).guards.keys ↔ Stranded config actions rule) := by
  have hiff : ∀ rule, (run config actions).LeftBehind rule ↔ Stranded config actions rule := fun rule =>
    ⟨LeftBehind.stranded actions, Stranded.leftBehind⟩
  refine ⟨hiff, fun hloops hsup hticks rule => ?_⟩
  rw [← hiff rule]
  have hloop : (run config actions).loops.get? rule = none := by
    cases hr : (run config actions).loops.get? rule with
    | none => rfl
    | some r =>
      have hmem : rule ∈ (run config actions).loops.keys := Table.mem_keys.mpr (by rw [hr]; rfl)
      rw [hloops] at hmem
      cases hmem
  refine ⟨fun hlisted => ⟨⟨⟨hloop, ?_⟩, ?_⟩, hlisted⟩, fun h => h.listed⟩
  · simp [hsup]
  · simp [hticks]

/-- A rule is stopped while its first tick runs, and the tick ends after the supervisor: the guard stays listed. -/
theorem stopped_before_the_end :
    let s := run .standard [.submit .errorCount, .fire 1, .start 0, .stop "r1", .leave 1, .exit 1, .reconcile 0]
    s.guards.keys = ["r1"] ∧ s.loops.keys = [] ∧ s.supervisors = [] ∧ s.ticks = [] := by
  decide

end Alerting.Scheduler
