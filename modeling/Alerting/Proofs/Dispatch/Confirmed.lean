import Alerting.Proofs.Recovery.Listed
import Alerting.Proofs.Recovery.Stuck

/-!
# The confirmation time

A dispatch confirms an unconfirmed alert only when it is as old as the confirmation time of its rule. A pass does not
look at the age: it makes every current alert active that is listed as missing (`Work.Rushes`). An unconfirmed alert is
listed only when a generation has started over a recovered event whose entry was left behind (`Engine.NoLeftovers`). If
there never is such an entry, and so in particular if no call fails, every generation is confirmed in time
(`confirmed_in_time`). One deletion that fails is enough to confirm the next generation as soon as it starts
(`confirmed_at_once`).
-/

namespace Alerting

/-! ## Confirmations -/

/-- A write confirms a generation: it is the first with an active event. -/
def Write.Confirms (x : Write) (earlier : List (Nat × Write)) : Prop :=
  x.event.status = .alerting ∧ ∀ y ∈ earlier, y.2.event.id = x.event.id → y.2.event.status ≠ .alerting

instance (x : Write) (earlier : List (Nat × Write)) : Decidable (x.Confirms earlier) :=
  inferInstanceAs (Decidable (_ ∧ ∀ y ∈ earlier, _ → _ ≠ _))

/-- When the event was made, its generation was as old as the confirmation time of the rule. -/
def Event.Ripe (rule : Rule) (a : Event) : Prop :=
  Duration.ofSecs rule.forDurationSecs ≤ a.lastEvalTime.elapsedSince a.firstTriggerTime

instance (rule : Rule) (a : Event) : Decidable (a.Ripe rule) := inferInstanceAs (Decidable (_ ≤ _))

/-- A write of a pass over an unconfirmed event that was listed as missing when the pass began. -/
def Work.Rushes (rule : Rule) (e : Engine) (w : Work) (x : Write) : Prop :=
  ∃ scope current suppressed now old, w = .recover scope current suppressed now ∧
    e.events.find? rule.scope.eventsKey old.fingerprint = some old ∧ old.status = .preAlert ∧
    e.Lists rule.scope old.fingerprint ∧ x = ⟨some old, old.moved .alerting now⟩

/-- A piece of work of one rule: it works off answers of the rule, or it is a pass of the rule. -/
structure Work.IsOf (rule : Rule) (w : Work) : Prop where
  answers : ∀ t ∈ w.tasks, t.rule = rule
  passes : ∀ scope current suppressed now, w = .recover scope current suppressed now → scope = rule.scope

theorem Work.isOf_dispatch (rule : Rule) (readings : List Reading) : (Work.dispatch rule readings).IsOf rule := by
  refine ⟨fun t ht => ?_, nofun⟩
  obtain ⟨r, -, answer, -, rfl⟩ := AnswerTask.mem_ofReadings_of_rule ht
  rfl

theorem Work.isOf_recover (rule : Rule) (current suppressed : List String) (now : Instant) :
    (Work.recover rule.scope current suppressed now).IsOf rule :=
  ⟨fun _ ht => (nomatch ht), fun _ _ _ _ h => by cases h; rfl⟩

theorem Work.IsOf.keepsApart {rule : Rule} {w : Work} (h : w.IsOf rule) : w.KeepsApart rule fun _ => True :=
  ⟨fun t ht _ _ _ _ => ⟨fun _ => trivial, fun _ => congrArg Rule.owner (h.answers t ht)⟩,
    fun scope current suppressed now hw _ => h.passes scope current suppressed now hw⟩

namespace Engine

/-- Every generation was confirmed in time. -/
def InTime (rule : Rule) (e : Engine) : Prop :=
  e.NewWrites [] fun earlier x => x.Confirms earlier → x.event.Ripe rule

/-- The last write was too early if it confirms a generation that is too young. -/
theorem not_inTime_of_head {rule : Rule} {e : Engine}
    (h : ∃ y ∈ e.writes.head?, y.2.Confirms e.writes.tail ∧ ¬y.2.event.Ripe rule) : ¬e.InTime rule := by
  obtain ⟨y, hy, hconfirms, hyoung⟩ := h
  obtain ⟨earlier, hw⟩ := List.head?_eq_some_iff.mp hy
  rw [hw, List.tail_cons] at hconfirms
  exact fun hin => hyoung (hin [] y earlier hw List.nil_suffix hconfirms)

/-- The generation of an event has been written as active. -/
def WasActive (e : Engine) (a : Event) : Prop := ∃ y ∈ e.writes, y.2.event.id = a.id ∧ y.2.event.status = .alerting

/-- What is stored and not unconfirmed has been active, and later writes than those of the past confirm in time, or
early in a way that is known. -/
structure Grown (rule : Rule) (early : Write → Prop) (past : List (Nat × Write)) (e : Engine) : Prop where
  coherent : e.Coherent
  active : ∀ a, e.Knows Landed a → a.status ≠ .preAlert → e.WasActive a
  writes : e.NewWrites past fun earlier x => x.Confirms earlier → x.event.Ripe rule ∨ early x

section Grown

variable {rule : Rule} {early : Write → Prop} {past : List (Nat × Write)} {e e' : Engine} {a b : Event}

theorem WasActive.of_writes (h : e.WasActive a) (hw : e'.writes = e.writes) : e'.WasActive a := by
  unfold WasActive
  rwa [hw]

theorem WasActive.stored (h : e.WasActive a) : (e.stored b).WasActive a := by
  obtain ⟨y, hy, h⟩ := h
  exact ⟨y, List.mem_cons_of_mem _ hy, h⟩

/-- What is stored as active has been active. -/
theorem wasActive_stored (h : a.status = .alerting) (hid : a.id = b.id) : (e.stored a).WasActive b :=
  ⟨_, List.mem_cons_self, hid, h⟩

/-- So far, there are no writes later than those of now. -/
theorem Grown.recent (h : e.Grown rule early past) (early' : Write → Prop) : e.Grown rule early' e.writes :=
  ⟨h.coherent, h.active, newWrites_self e _⟩

theorem Grown.quiet (h : e.Grown rule early past) (hq : Quietly e e') : e'.Grown rule early past :=
  ⟨hq (fun hq h => h.quiet hq) h.coherent,
    fun a ha hs => (h.active a (ha.of_quietly hq .inr) hs).of_writes hq.writes, h.writes.of_writes hq.writes⟩

/-- A store of an event that is unconfirmed, has been active, or is active in time. -/
theorem Grown.stored (h : e.Grown rule early past)
    (ha : a.status = .preAlert ∨ e.WasActive a ∨ a.status = .alerting ∧ (a.Ripe rule ∨
      early ⟨e.events.find? (EventCache.keyOf a) a.fingerprint, a⟩)) : (e.stored a).Grown rule early past := by
  refine ⟨h.coherent.stored a, fun b hb hs => ?_, h.writes.stored fun ⟨hst, hfirst⟩ => ?_⟩
  · rcases hb.of_stored with rfl | hb
    · rcases ha with ha | ha | ⟨ha, -⟩
      · exact absurd ha hs
      · exact ha.stored
      · exact wasActive_stored ha rfl
    · exact (h.active b hb hs).stored
  · rcases ha with ha | ⟨y, hy, hid, hy'⟩ | ⟨-, ha⟩
    · rw [ha] at hst
      cases hst
    · exact absurd hy' (hfirst y hy hid)
    · exact ha

/-- An event that may be stored: it is unconfirmed, its generation has been active, or it is active in time. -/
def MayStore (rule : Rule) (e : Engine) (a : Event) : Prop :=
  a.status = .preAlert ∨ e.WasActive a ∨ a.status = .alerting ∧ a.Ripe rule

/-- **The calls for answers of a rule confirm its alerts in time.** -/
theorem pointwise_grown {tasks : List AnswerTask} (hrule : ∀ t ∈ tasks, t.rule = rule) (early : Write → Prop)
    (past : List (Nat × Write)) : Pointwise tasks (Grown rule early past) (MayStore rule) := by
  refine ⟨?quiet, ?looked, ?stored⟩
  case quiet =>
    intro e e' hq h
    exact ⟨h.quiet hq, Or.imp_right (Or.imp_left fun ha => ha.of_writes hq.writes)⟩
  case looked =>
    intro t ht f _ e e' a hq _ h hp ha
    have hc := h.coherent.liesAt_cached t.rule
    cases Finding.origin_of_mem_events hc ha with
    | started _ _ hs => exact .inl hs
    | continued c hcc _ hid hs hfirst =>
      by_cases hd : (f.isMatch && c.isDue t.rule t.now) = true
      · rw [if_pos hd] at hs
        have hdue := (Bool.and_eq_true_iff.mp (Bool.and_eq_true_iff.mp hd).2).2
        rw [hrule t ht] at hdue
        refine .inr (.inr ⟨hs, ?_⟩)
        rw [Event.Ripe, hfirst, Finding.lastEvalTime_of_mem_events ha]
        exact of_decide_eq_true hdue
      · rw [if_neg hd] at hs
        by_cases hpre : c.status = .preAlert
        · exact .inl (hs.trans hpre)
        · obtain ⟨y, hy, hyid, hys⟩ := h.active c (h.coherent.knows hcc Landed) hpre
          exact .inr (.inl ⟨y, hq.writes ▸ hy, hyid.trans hid.symm, hys⟩)
  case stored =>
    intro e a h ha
    exact ⟨h.stored (ha.imp_right (Or.imp_right fun ha => ⟨ha.1, .inl ha.2⟩)),
      Or.imp_right (Or.imp_left fun hb => hb.stored)⟩

/-- **A pass confirms only what was unconfirmed and listed as missing.** -/
theorem Grown.turn {config : Config} {current suppressed : List String} {now : Instant} {info : Option FaultCenter}
    {fingerprint : String} {e₀ : Engine}
    (h : e.Grown rule ((Work.recover rule.scope current suppressed now).Rushes rule e₀) past)
    (ht : Turn config rule.scope now info (e₀.cell rule.scope fingerprint) fingerprint e e') :
    e'.Grown rule ((Work.recover rule.scope current suppressed now).Rushes rule e₀) past := by
  -- What has left the unconfirmed state has been active, so no other move can be the first active event.
  have hmoved : ∀ {e : Engine} {old : Event} (target : Status) {d : Cell} {early : Write → Prop},
      e.Grown rule early past → e.cell rule.scope fingerprint = d → d.record.filter rule.scope.owns = some old →
      old.status ≠ .preAlert → (e.stored (old.moved target now)).Grown rule early past := by
    intro e old target d early h hc ho hs
    have hactive := h.active old (h.coherent.knows (find?_of_cell_eq hc ho) Landed) hs
    exact h.stored (.inr (.inl hactive))
  have hne : ∀ {s : Status}, s.allows .pendingRecovery = true → s ≠ .preAlert := by
    rintro s ha rfl
    cases ha
  cases ht with
  | quiet hq => exact h.quiet hq.quietly
  | discarded => exact ⟨h.coherent.removed _ _ _, fun a ha => h.active a ha.of_removed, h.writes⟩
  | reactivated old hc ho hl hsince ha =>
    by_cases hs : old.status = .preAlert
    · refine h.stored (.inr (.inr ⟨rfl, .inr ⟨_, current, suppressed, now, old, rfl, ?_, hs, ?_, ?_⟩⟩))
      · rw [hl.2]
        exact Cell.record_of_owned ho
      · rw [hl.2]
        exact hsince
      · have hf : e.events.find? (EventCache.keyOf old) old.fingerprint = some old := by
          rw [hl.1, hl.2]
          exact find?_of_cell_eq hc ho
        exact congrArg (fun r => Write.mk r (old.moved .alerting now)) hf
    · exact hmoved .alerting h hc ho hs
  | listed old | unlisted => exact ⟨h.coherent, h.active, h.writes⟩
  | wentMissing old hc ho hl ha => exact hmoved .pendingRecovery h hc ho (hne ha)
  | recovered old since hc ho hl hs => exact hmoved .recovered h hc ho (by rw [hs]; exact nofun)

/-- What is stored may be stored. -/
theorem Grown.mayStore (h : e.Grown rule early past) (ha : e.Knows Landed a) : e.MayStore rule a :=
  (Decidable.em (a.status = .preAlert)).imp_right fun hs => .inl (h.active a ha hs)

/-- **In a piece of work of a rule, what is confirmed early was unconfirmed and listed as missing.** -/
theorem Grown.after {w : Work} (h : e.Grown rule (w.Rushes rule e) past) (hw : w.IsOf rule) (config : Config) :
    (e.after config w).Grown rule (w.Rushes rule e) past := by
  refine ((pointwise_grown hw.answers _ _).keptBy.after config h.coherent
    (fun scope current suppressed now hrec fingerprint e₁ e₂ ht h => ?_) ⟨h, fun _ => h.mayStore⟩).1
  obtain rfl := hw.passes scope current suppressed now hrec
  subst hrec
  have hnext := h.1.turn ht
  exact ⟨hnext, fun _ => hnext.mayStore⟩

/-- After a run, what is stored and not unconfirmed has been active. -/
theorem Grown.run {works : List Work} (h : e.Grown rule (fun _ => True) []) (hw : ∀ w ∈ works, w.IsOf rule)
    (config : Config) : (e.run config works).Grown rule (fun _ => True) [] := by
  induction works generalizing e with
  | nil => exact h
  | cons w works ih =>
    have hafter := (h.recent (w.Rushes rule e)).after (hw w List.mem_cons_self) config
    exact ih ⟨hafter.coherent, hafter.active, fun _ _ _ _ _ _ => .inr trivial⟩
      fun x hx => hw x (List.mem_cons_of_mem w hx)

end Grown

/-! ## Entries of unconfirmed alerts -/

/-- No entry stands beside a recovered event of the rule's fault center. -/
def NoLeftovers (rule : Rule) (e : Engine) : Prop :=
  ∀ fingerprint a, e.events.find? rule.scope.eventsKey fingerprint = some a → a.status = .recovered →
    ¬e.Lists rule.scope fingerprint

/-- Beside every entry of the rule stands an event that satisfies a property. -/
def Backed (rule : Rule) (p : Status → Prop) (e : Engine) : Prop :=
  ∀ fingerprint, e.Lists rule.scope fingerprint →
    ∃ a, e.events.find? rule.scope.eventsKey fingerprint = some a ∧ p a.status

section Backed

variable {rule : Rule} {p : Status → Prop} {e e' : Engine}

theorem Backed.quiet (h : e.Backed rule p) (hq : Quietly e e') : e'.Backed rule p := by
  intro fingerprint hl
  rw [Lists, hq.pending] at hl
  rw [hq.events]
  exact h fingerprint hl

theorem Backed.stored (h : e.Backed rule p) {a : Event}
    (ha : EventCache.keyOf a = rule.scope.eventsKey → e.Lists rule.scope a.fingerprint → p a.status) :
    (e.stored a).Backed rule p := by
  intro fingerprint hl
  by_cases hat : a.LiesAt rule.scope.eventsKey fingerprint
  · refine ⟨a, find?_stored_self hat, ?_⟩
    obtain ⟨hk, rfl⟩ := hat
    exact ha hk hl
  · rw [find?_stored_of_ne hat]
    exact h fingerprint hl

variable (rule) in
/-- **The calls for answers start no generation where an entry stands beside a live event that is not unconfirmed.** -/
theorem pointwise_backed (tasks : List AnswerTask) :
    Pointwise tasks (fun e => e.Coherent ∧ e.Backed rule fun s => s ≠ .preAlert ∧ s ≠ .recovered) fun e a =>
      EventCache.keyOf a = rule.scope.eventsKey → e.Lists rule.scope a.fingerprint →
        a.status ≠ .preAlert ∧ a.status ≠ .recovered := by
  refine ⟨?quiet, ?looked, ?stored⟩
  case quiet =>
    rintro e e' hq ⟨hc, h⟩
    refine ⟨⟨hq (fun hq h => h.quiet hq) hc, h.quiet hq⟩, ?_⟩
    intro a ha hk hl
    rw [Lists, hq.pending] at hl
    exact ha hk hl
  case stored =>
    rintro e a ⟨hc, h⟩ ha
    exact ⟨⟨hc.stored a, h.stored ha⟩, fun hb => hb⟩
  case looked =>
    rintro t - f - e e' a hq - ⟨hc, h⟩ - ha hk hl
    rw [Lists, hq.pending] at hl
    have hcached := hc.liesAt_cached t.rule
    obtain ⟨c, hf, hpre, hrec⟩ := h a.fingerprint hl
    rw [← hk, (Finding.liesAt_of_mem_events hcached ha).1.1] at hf
    cases Finding.origin_of_mem_events hcached ha with
    | continued c' hcc _ _ hs =>
      obtain rfl : c = c' := Option.some.inj (hf.symm.trans hcc)
      rw [hs]
      split
      · exact ⟨by decide, by decide⟩
      · exact ⟨hpre, hrec⟩
    | started _ _ _ hnew => exact absurd (Status.isTerminal_iff.mp (hnew c hf)) hrec

/-- **A pass lists no unconfirmed alert.** -/
theorem Backed.turn (h : e.Backed rule (· ≠ .preAlert)) {config : Config} {now : Instant} {info : Option FaultCenter}
    {c : Cell} {fingerprint : String} (ht : Turn config rule.scope now info c fingerprint e e') :
    e'.Backed rule (· ≠ .preAlert) := by
  cases ht with
  | quiet hq => exact h.quiet hq.quietly
  | reactivated | wentMissing | recovered => exact h.stored fun _ _ => nofun
  | discarded old hc ho hl hs =>
    intro k hk
    obtain ⟨a, hf, hne⟩ := h k hk
    refine ⟨a, ?_, hne⟩
    rw [removed, EventCache.find?_remove, if_neg]
    · exact hf
    · rintro ⟨-, rfl⟩
      rw [find?_of_cell_eq hc ho] at hf
      cases hf
      exact hne hs
  | listed old hc ho hsince ha =>
    intro k hk
    by_cases hkf : k = fingerprint
    · subst hkf
      have hf := find?_of_cell_eq hc ho
      refine ⟨old, hf, fun hs => ?_⟩
      rw [hs] at ha
      cases ha
    · refine h k ?_
      simpa only [Lists, missed, PendingCache.get?_set, hkf, and_false, if_false] using hk
  | unlisted hs =>
    intro k hk
    refine h k ?_
    simp only [Lists, found, PendingCache.get?_delete] at hk
    split at hk
    · cases hk
    · exact hk

/-- **A piece of work of a rule lists no unconfirmed alert, and starts none that is listed**, if it finds no entry
beside a recovered event. -/
theorem Backed.after {w : Work} (h : e.Backed rule (· ≠ .preAlert)) (hc : e.Coherent) (hleft : e.NoLeftovers rule)
    (hw : w.IsOf rule) (config : Config) : (e.after config w).Backed rule (· ≠ .preAlert) := by
  have hkept := (pointwise_backed rule w.tasks).keptBy
  cases w with
  | dispatch | race =>
    have hlive : e.Backed rule fun s => s ≠ .preAlert ∧ s ≠ .recovered := fun k hl => by
      obtain ⟨a, hf, hs⟩ := h k hl
      exact ⟨a, hf, hs, fun hrec => hleft k a hf hrec hl⟩
    have hknown : ∀ a, e.Knows Landed a → EventCache.keyOf a = rule.scope.eventsKey →
        e.Lists rule.scope a.fingerprint → a.status ≠ .preAlert ∧ a.status ≠ .recovered := fun a ha hk hl => by
      obtain ⟨b, hf, hb⟩ := hlive a.fingerprint hl
      rw [← hk, ha.stored_of_landed] at hf
      cases hf
      exact hb
    have hafter := (hkept.after config hc (fun _ _ _ _ hrec => nomatch hrec) ⟨⟨hc, hlive⟩, hknown⟩).1.2
    exact fun k hl => (hafter k hl).imp fun _ ⟨hf, hs, _⟩ => ⟨hf, hs⟩
  | recover scope current suppressed now =>
    obtain rfl := hw.passes scope current suppressed now rfl
    exact reconcile_keeps_turns config rule.scope current suppressed now hc (fun _ _ _ ht h => h.turn ht) h

end Backed

/-! ## Runs of a rule -/

section Runs

variable {rule : Rule} {config : Config} {works : List Work} {e : Engine}

/-- **A run that never leaves an entry beside a recovered event confirms every generation in time.** -/
theorem InTime.run (h : e.InTime rule) (hg : e.Grown rule (fun _ => True) []) (hb : e.Backed rule (· ≠ .preAlert))
    (hw : ∀ w ∈ works, w.IsOf rule) (hleft : ∀ before, before <+: works → (e.run config before).NoLeftovers rule) :
    (e.run config works).InTime rule := by
  induction works generalizing e with
  | nil => exact h
  | cons w works ih =>
    have hof := hw w List.mem_cons_self
    have hafter : (e.after config w).Grown rule (w.Rushes rule e) [] :=
      Grown.after ⟨hg.coherent, hg.active, h.mono fun _ _ hx hcf => .inl (hx hcf)⟩ hof config
    -- No unconfirmed event is listed, so the pass has nothing to rush.
    have htime : (e.after config w).InTime rule := hafter.writes.mono fun _ x hx hcf =>
      (hx hcf).resolve_right fun ⟨_, _, _, _, old, _, hf, hs, hl, _⟩ => by
        obtain ⟨a, hf', hne⟩ := hb _ hl
        rw [hf] at hf'
        cases hf'
        exact hne hs
    exact ih htime ⟨hafter.coherent, hafter.active, fun _ _ _ _ _ _ => .inr trivial⟩
      (hb.after hg.coherent (hleft [] List.nil_prefix) hof config) (fun x hx => hw x (List.mem_cons_of_mem w hx))
      fun before hbefore => hleft (w :: before) (List.cons_prefix_cons.mpr ⟨rfl, hbefore⟩)

variable {faults : Nat → Call → Bool} {infos : InfoCache}

/-- Before any work, nothing was confirmed early. -/
theorem grown_fresh (faults : Nat → Call → Bool) (infos : InfoCache) (rule : Rule) (early : Write → Prop) :
    (fresh faults infos).Grown rule early [] :=
  ⟨coherent_fresh faults infos, fun _ ha => (nomatch ha.stored_of_landed), newWrites_self (fresh faults infos) _⟩

theorem inTime_of_noLeftovers (hw : ∀ w ∈ works, w.IsOf rule)
    (hleft : ∀ before, before <+: works → ((fresh faults infos).run config before).NoLeftovers rule) :
    ((fresh faults infos).run config works).InTime rule := by
  have hfresh : (fresh faults infos).InTime rule := newWrites_self (fresh faults infos) _
  have hempty : (fresh faults infos).Backed rule (· ≠ .preAlert) := fun _ hl => nomatch hl
  exact hfresh.run (grown_fresh faults infos rule _) hempty hw hleft

/-- **When no call has failed, every generation was confirmed in time**, since every entry stands beside a pending
event. -/
theorem inTime_of_noneFailed (hw : ∀ w ∈ works, w.IsOf rule)
    (hnone : (fresh faults infos).NoneFailed ((fresh faults infos).run config works)) :
    ((fresh faults infos).run config works).InTime rule := by
  refine inTime_of_noLeftovers hw fun before hbefore k a hstored hs hl => ?_
  have hapart : ∀ w ∈ before, w.KeepsApart rule fun _ => True := fun w h => (hw w (hbefore.subset h)).keepsApart
  obtain ⟨c, hf, -, hcs⟩ := (shows_of_lists hapart config (hnone.of_prefix hbefore) hl).exists_event
  rw [hstored] at hf
  cases hf
  rw [hs] at hcs
  cases hcs

end Runs

end Engine

/-- A pass makes a current unconfirmed alert active exactly if it is listed as missing. -/
theorem Cell.pass_current_preAlert {c : Cell} {scope : Scope} (hs : c.status scope = some .preAlert) (config : Config)
    (info : Option FaultCenter) (now : Instant) (isSuppressed : Bool) :
    (c.pass config scope info now true isSuppressed).2.status scope = some .alerting ↔ c.since.isSome = true := by
  obtain ⟨a, ha, has⟩ := Option.map_eq_some_iff.mp hs
  rw [pass_current]
  cases c.since.isSome with
  | true =>
    have hallows : a.status.allows .alerting = true := by rw [has]; rfl
    simp [ha, Job.result, hallows, status_moved ha]
  | false => simp [hs]

/-- **The confirmation time is respected except where an entry was left behind.** In every run of dispatches and passes
of a rule, whichever calls fail and in whatever order the datasources make theirs, an early confirmation is one by a
pass, of an unconfirmed alert that was listed as missing when the pass began. If no piece of work leaves an entry beside
a recovered event, and so if no call fails, there is none. But a pass in which no call fails confirms every current
alert that is unconfirmed and listed, whatever its age, and no other one. -/
theorem confirmed_in_time (config : Config) (faults : Nat → Call → Bool) (infos : InfoCache) (rule : Rule)
    (works : List Work) (hworks : ∀ w ∈ works, w.IsOf rule) :
    let start := Engine.fresh faults infos
    let e := start.run config works
    (∀ w, w.IsOf rule → (e.after config w).NewWrites e.writes fun earlier x => x.Confirms earlier →
        x.event.Ripe rule ∨ w.Rushes rule e x) ∧
      ((∀ before, before <+: works → (start.run config before).NoLeftovers rule) → e.InTime rule) ∧
      (start.NoneFailed e → e.InTime rule) ∧
      ∀ current suppressed now result e', e.reconcile config rule.scope current suppressed now = (result, e') →
        e.NoneFailed e' → (∃ r, result = .ok r) ∧
          ∀ fingerprint, Engine.isCurrent current fingerprint = true → e.Shows rule.scope fingerprint .preAlert →
            (e'.Shows rule.scope fingerprint .alerting ↔ e.Lists rule.scope fingerprint) := by
  intro start e
  have hgrown : e.Grown rule (fun _ => True) [] := (Engine.grown_fresh faults infos rule _).run hworks config
  refine ⟨?_, Engine.inTime_of_noLeftovers hworks, Engine.inTime_of_noneFailed hworks, ?_⟩
  · intro w hw
    exact ((hgrown.recent _).after hw config).writes
  · intro current suppressed now result e' hr hnone
    have hpass := Engine.reconcile_of_noneFailed config rule.scope current suppressed now hgrown.coherent
      rule.scope_keys.1 rule.scope_keys.2 (by rwa [hr])
    rw [hr] at hpass
    refine ⟨hpass.1, ?_⟩
    intro k hcur hs
    rw [Engine.Shows, hpass.2 k, hcur]
    exact Cell.pass_current_preAlert hs ..

/-- A rule that confirms its alerts after an hour. -/
def Rule.errorCountOfHour : Rule := { Rule.errorCount with forDurationSecs := 3600 }

/-- An alert is confirmed, it goes missing and it recovers, and then it matches again. The entry is removed by the
fourteenth call. -/
def Work.leftBehind : List Work :=
  let time (n : Nat) := Instant.epoch.after (.ofSecs n)
  let hit (n : Nat) := Work.dispatch .errorCountOfHour [⟨"ds1", time n, 0, .ok (.count 5)⟩]
  let miss (n : Nat) := Work.recover Rule.errorCountOfHour.scope [] [] (time n)
  [hit 0, hit 3600, miss 3610, miss 3730, hit 3740]

theorem Work.isOf_leftBehind : ∀ w ∈ Work.leftBehind, w.IsOf .errorCountOfHour := by
  intro w hw
  simp only [leftBehind, List.mem_cons, List.not_mem_nil, or_false] at hw
  rcases hw with rfl | rfl | rfl | rfl | rfl
  · exact isOf_dispatch ..
  · exact isOf_dispatch ..
  · exact isOf_recover ..
  · exact isOf_recover ..
  · exact isOf_dispatch ..

/-- When the entry is not removed, the pass after that writes an active event of a generation that has just begun. No
call fails before the second pass, and none after it. -/
theorem Engine.run_leftBehind :
    let k := Fingerprint.ofRule "r1"
    let start := Engine.fresh (fun n _ => n == 13) .empty
    let e := start.run .standard Work.leftBehind
    let e' := e.after .standard (.recover Rule.errorCountOfHour.scope [k] [] (Instant.epoch.after (.ofSecs 3740)))
    (start.run .standard (Work.leftBehind.take 3)).calls ≤ 13 ∧ 13 < e.calls ∧
      e.Shows Rule.errorCountOfHour.scope k .preAlert ∧ e.Lists Rule.errorCountOfHour.scope k ∧
      isCurrent [k] k = true ∧ ∃ y ∈ e'.writes.head?, e'.writes.tail = e.writes ∧ y.2.Confirms e.writes ∧
        ¬y.2.event.Ripe .errorCountOfHour := by
  decide +kernel

/-- What that pass confirms early was listed as missing. Before the second pass, every generation was confirmed in
time. -/
theorem confirmed_in_time_leftBehind :
    let rule := Rule.errorCountOfHour
    let k := Fingerprint.ofRule "r1"
    let start := Engine.fresh (fun n _ => n == 13) .empty
    let e := start.run .standard Work.leftBehind
    let e' := start.run .standard (Work.leftBehind.take 3)
    let w := Work.recover rule.scope [k] [] (Instant.epoch.after (.ofSecs 3740))
    (∀ w ∈ Work.leftBehind, w.IsOf rule) ∧ w.IsOf rule ∧
      (∃ y, (e.after .standard w).writes = y :: e.writes ∧ y.2.Confirms e.writes ∧ ¬y.2.event.Ripe rule ∧
        w.Rushes rule e y.2) ∧
      start.NoneFailed e' ∧ e'.InTime rule ∧
      e.NoneFailed (e.after .standard w) ∧ e.Lists rule.scope k ∧
      (e.after .standard w).Shows rule.scope k .alerting := by
  obtain ⟨hbefore, hcalls, hpre, hlists, hcur, y, hy, htail, hconfirms, hyoung⟩ := Engine.run_leftBehind
  have hworks := Work.isOf_leftBehind
  have hpass := Work.isOf_recover .errorCountOfHour [Fingerprint.ofRule "r1"] [] (Instant.epoch.after (.ofSecs 3740))
  have hfaults := Engine.faults_run .standard Work.leftBehind (Engine.fresh (fun n _ => n == 13) .empty)
  obtain ⟨hearly, -, -, hhealthy⟩ := confirmed_in_time .standard (fun n _ => n == 13) .empty _ _ hworks
  obtain ⟨-, -, htime, -⟩ := confirmed_in_time .standard (fun n _ => n == 13) .empty _ (Work.leftBehind.take 3)
    fun w hw => hworks w (List.mem_of_mem_take hw)
  have hnone : (Engine.fresh (fun n _ => n == 13) .empty).NoneFailed _ := Engine.noneFailed_of_once rfl (.inl hbefore)
  have hlater : ∀ e', Engine.NoneFailed _ e' := fun e' => Engine.noneFailed_of_once hfaults (.inr hcalls)
  obtain ⟨earlier, hwrites⟩ := List.head?_eq_some_iff.mp hy
  rw [hwrites, List.tail_cons] at htail
  rw [htail] at hwrites
  have hrushes := (hearly _ hpass [] y _ hwrites (List.suffix_refl _) hconfirms).resolve_left hyoung
  obtain ⟨-, hactive⟩ := hhealthy [Fingerprint.ofRule "r1"] [] (Instant.epoch.after (.ofSecs 3740)) _ _
    (Prod.eta _).symm (hlater _)
  exact ⟨hworks, hpass, ⟨y, hwrites, hconfirms, hyoung, hrushes⟩, hnone, htime hnone, hlater _, hlists,
    (hactive _ hcur hpre).mpr hlists⟩

/-- **One deletion that fails confirms the next generation at once.** The confirmation time is an hour. An alert
recovers two minutes after it went missing, but the deletion of its entry fails. When it matches again, the pass of the
same tick makes it active. -/
theorem confirmed_at_once :
    let time (n : Nat) := Instant.epoch.after (.ofSecs n)
    let tick (n lines : Nat) : List Reading × Instant := ([⟨"ds1", time n, 0, .ok (.count lines)⟩], time n)
    let e := (Engine.fresh (fun n _ => n == 19) .empty).ticks .standard .errorCountOfHour
      [tick 0 5, tick 3600 5, tick 3610 0, tick 3730 0, tick 3740 5]
    ¬e.InTime .errorCountOfHour :=
  Engine.not_inTime_of_head (by decide +kernel)

end Alerting
