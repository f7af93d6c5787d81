import Alerting.Proofs.Dispatch.Undone
import Alerting.Proofs.Recovery.Listed
import Alerting.Proofs.Recovery.Stuck

/-!
# What matches is live

A dispatch stores an event for everything that matches before it reports it, and no event of an answer is a recovered
one. So when no call fails, everything that is reported is live when the dispatch returns (`gather_live`), also when
the datasources are worked off side by side (`raced_live`). The pass that follows leaves what is current unconfirmed or
active: were it pending, it would have an entry, and the pass makes what has an entry active again
(`Engine.LeavesLive`, `matching_is_live`). Cloud rules are another matter, they report every endpoint that they have.
-/

namespace Alerting

/-! ## Sets of texts -/

theorem TextSet.contains_addAll {texts : List String} {s : TextSet} {t : String} :
    (s.addAll texts).contains t = true ↔ s.contains t = true ∨ t ∈ texts ∧ t.isEmpty = false := by
  induction texts generalizing s with
  | nil => simp [addAll]
  | cons x texts ih =>
    have hstep : s.addAll (x :: texts) = TextSet.addAll (if x.isEmpty then s else s.insert x ()) texts := rfl
    rw [hstep, ih]
    cases hx : x.isEmpty with
    | true =>
      have hne : t.isEmpty = false → t ≠ x := by
        rintro ht rfl
        rw [hx] at ht
        cases ht
      simp only [if_true, List.mem_cons]
      refine or_congr_right ⟨fun h => ⟨.inr h.1, h.2⟩, fun h => ⟨h.1.resolve_left (hne h.2), h.2⟩⟩
    | false =>
      simp only [Bool.false_eq_true, if_false, Table.contains, Table.get?_insert, List.mem_cons]
      by_cases ht : t = x
      · subst ht
        simp [hx]
      · simp [ht]

/-- What is in one set of texts and not in another. -/
theorem TextSet.mem_keys_filter {s s' : TextSet} {t : String} :
    t ∈ (s.filter fun t _ => !s'.contains t).keys ↔ s.contains t = true ∧ s'.contains t = false := by
  simp only [Table.mem_keys, Table.get?_filter, Option.isSome_filter, Table.contains]
  cases s.get? t <;> simp

theorem AnswerTask.contains_gathered {texts : Outcome → List String} {tasks : List AnswerTask} {k : String} :
    (gathered texts tasks).contains k = true ↔ (∃ t ∈ tasks, k ∈ texts t.outcome) ∧ k.isEmpty = false := by
  have hfold : ∀ s : TextSet, (tasks.foldl (fun s t => s.addAll (texts t.outcome)) s).contains k = true ↔
      s.contains k = true ∨ (∃ t ∈ tasks, k ∈ texts t.outcome) ∧ k.isEmpty = false := by
    induction tasks with
    | nil => simp
    | cons t tasks ih =>
      intro s
      rw [List.foldl_cons, ih, TextSet.contains_addAll]
      simp only [List.mem_cons, exists_eq_or_imp]
      grind
  simpa [gathered, Table.contains] using hfold .empty

/-! ## What is reported has an event -/

section Events

variable {cached : String → Option Event} {rule : Rule} {datasource : String} {now : Instant}

/-- A fingerprint that an outcome has as current or as suppressed. -/
def Outcome.Reports (out : Outcome) (k : String) : Prop := k ∈ out.fingerprints ∨ k ∈ out.suppressed

/-- What working off findings reports was reported before, or it matches, or it is configured. -/
theorem Engine.reported_of_workOff {fs : List Finding} {e e' : Engine} {out out' : Outcome}
    (h : workOff rule datasource now e out fs = (.ok out', e')) {k : String} (hk : out'.Reports k) :
    out.Reports k ∨ (∃ o, .matched o ∈ fs ∧ o.fingerprint = k) ∨ .configured k ∈ fs := by
  obtain ⟨hcurrent, houtranked⟩ := workOff_reports fs h
  rw [Outcome.Reports, hcurrent, houtranked, List.mem_append, List.mem_append] at hk
  rcases hk with (hk | hk) | (hk | hk)
  · exact .inl (.inl hk)
  · obtain ⟨f, hf, hk⟩ := List.mem_filterMap.mp hk
    rcases Finding.eq_of_current? hk with ⟨o, rfl, ho⟩ | rfl
    · exact .inr (.inl ⟨o, hf, ho⟩)
    · exact .inr (.inr hf)
  · exact .inl (.inr hk)
  · obtain ⟨f, hf, hk⟩ := List.mem_filterMap.mp hk
    obtain ⟨o, rfl, ho⟩ := Finding.eq_of_outranked? hk
    exact .inr (.inl ⟨o, hf, ho⟩)

/-- Every match has an event. -/
theorem exists_event_of_matched {o : Observation} {fs : List Finding} (h : .matched o ∈ fs) (n : Nat) :
    ∃ event ∈ eventsOf cached rule datasource now n fs, event.fingerprint = o.fingerprint := by
  induction fs generalizing n with
  | nil => cases h
  | cons f fs ih =>
    rcases List.mem_cons.mp h with rfl | h
    · have hl := (o.event_spec rule datasource (Engine.mintedId n) now (cached o.fingerprint)).1
      exact ⟨_, List.mem_append_left _ List.mem_cons_self, hl.2⟩
    · obtain ⟨event, hev, hf⟩ := ih h (if f.isMatch then n + 1 else n)
      exact ⟨event, List.mem_append_right _ hev, hf⟩

end Events

/-! ## Live alerts -/

/-- An event in the fault center of a rule, under a fingerprint of the rule, of the rule and not recovered. -/
structure Event.IsLive (rule : Rule) (own : String → Prop) (a : Event) : Prop where
  key : EventCache.keyOf a = rule.scope.eventsKey
  fingerprint : own a.fingerprint
  owner : a.owner = rule.owner
  live : a.status ≠ .recovered

namespace Engine

/-- The rule of a scope has an event that is not recovered. -/
def Live (e : Engine) (scope : Scope) (fingerprint : String) : Prop :=
  ∃ s, e.Shows scope fingerprint s ∧ s ≠ .recovered

/-- Events stand where they belong, and those of the rule are the ones under its fingerprints. -/
def AllPlaced (rule : Rule) (own : String → Prop) (e : Engine) : Prop :=
  e.Coherent ∧ ∀ a, e.Knows Landed a → a.Placed rule own

section Stores

variable {rule : Rule} {own : String → Prop} {e e' : Engine} {k : String} {a : Event}

theorem AllListed.placed (h : e.AllListed rule own) : e.AllPlaced rule own := ⟨h.1, fun a ha => (h.2 a ha).1⟩

theorem AllPlaced.of_events (h : e.AllPlaced rule own) (he : e'.events = e.events) : e'.AllPlaced rule own := by
  unfold AllPlaced Coherent Knows
  rw [he]
  exact h

theorem AllPlaced.stored (h : e.AllPlaced rule own) (ha : a.IsLive rule own) : (e.stored a).AllPlaced rule own := by
  refine ⟨h.1.stored a, fun b hb => ?_⟩
  rcases hb.of_stored with rfl | hb
  · exact fun _ => ⟨fun _ => ha.fingerprint, fun _ => ha.owner⟩
  · exact h.2 b hb

theorem Live.of_events (h : e.Live rule.scope k) (he : e'.events = e.events) : e'.Live rule.scope k := by
  obtain ⟨s, hs, hne⟩ := h
  obtain ⟨a, hf, ho, rfl⟩ := hs.exists_event
  exact ⟨a.status, shows_of_find? (he ▸ hf) ho, hne⟩

/-- A stored live event makes its fingerprint live, and ends no other alert. -/
theorem live_stored (ha : a.IsLive rule own) (h : k = a.fingerprint ∨ e.Live rule.scope k) :
    (e.stored a).Live rule.scope k := by
  by_cases hk : k = a.fingerprint
  · exact ⟨a.status, shows_of_find? (find?_stored_self ⟨ha.key, hk.symm⟩) ha.owner, ha.live⟩
  · obtain ⟨s, hs, hne⟩ := h.resolve_left hk
    obtain ⟨c, hf, ho, rfl⟩ := hs.exists_event
    exact ⟨c.status, shows_of_find? ((find?_stored_of_ne fun hat => hk hat.2.symm).trans hf) ho, hne⟩

/-- When no call fails, the stores of live events make all their fingerprints live. -/
theorem live_store {events : List Event} (hh : e.Healthy) (hall : ∀ a ∈ events, a.IsLive rule own)
    (h : (∃ a ∈ events, a.fingerprint = k) ∨ e.Live rule.scope k) :
    (Engine.store rule.id e events).2.Live rule.scope k := by
  induction events generalizing e with
  | nil => exact h.resolve_left fun ⟨_, ha, _⟩ => nomatch ha
  | cons a events ih =>
    have ha := hall a List.mem_cons_self
    rw [store_of_healthy hh]
    refine ih (e := e.counted.stored a) hh (fun b hb => hall b (List.mem_cons_of_mem a hb)) ?_
    rcases h with ⟨b, hb, hf⟩ | h
    · rcases List.mem_cons.mp hb with rfl | hb
      · exact .inr (live_stored ha (.inl hf.symm))
      · exact .inl ⟨b, hb, hf⟩
    · exact .inr (live_stored (e := e.counted) ha (.inr h))

/-- The events of the rule's answers are live. -/
theorem isLive_of_mem_eventsOf (hp : e.AllPlaced rule own) {datasource : String} {now : Instant} {fs : List Finding}
    (hown : ∀ f ∈ fs, ∀ fingerprint, f.Concerns fingerprint → own fingerprint) {n : Nat}
    (ha : a ∈ eventsOf (e.cached rule) rule datasource now n fs) : a.IsLive rule own := by
  obtain ⟨f, hf, m, -, -, ha⟩ := mem_eventsOf ha
  have hc := hp.1.liesAt_cached rule
  obtain ⟨hlies, hcon⟩ := Finding.liesAt_of_mem_events hc ha
  have hplaced := (placed_of_mem_events (t := ⟨rule, datasource, now, fs, .empty⟩) hp.1 hp.2
    (fun k hk => ⟨fun _ => hown f hf k hk, fun _ => rfl⟩) ha).1
  have hfp := hown f hf _ hcon
  exact ⟨hlies.1, hfp, (hplaced hlies.1).mpr hfp, (Finding.origin_of_mem_events hc ha).ne_recovered⟩

end Stores

/-! ## A dispatch in which no call fails -/

section Dispatch

variable {rule : Rule} {own : String → Prop} {e : Engine}

/-- When no call fails, everything that an answer reports is live afterwards, and no alert has ended. -/
theorem complete_live (hh : e.Healthy) (hp : e.AllPlaced rule own) (hcloud : rule.query.family ≠ .cloudMetrics)
    (datasource : String) (now : Instant) (answer : Answer)
    (hown : ∀ f ∈ rule.findings answer, ∀ fingerprint, f.Concerns fingerprint → own fingerprint) :
    ∃ out pushed e', e.complete rule datasource now (.ok answer) = (.answered out pushed, e') ∧ e'.Healthy ∧
      ∀ k, out.Reports k ∨ e.Live rule.scope k → e'.Live rule.scope k := by
  obtain ⟨out, e₁, hw, hh₁⟩ := workOff_of_healthy rule datasource now (rule.findings answer) .empty hh
  have hev : e₁.events = e.events := by
    have := (workOff_events rule datasource now (rule.findings answer) e .empty).1
    rwa [hw] at this
  have hout : out.events = eventsOf (e.cached rule) rule datasource now e.minted (rule.findings answer) :=
    (workOff_spec _ hw).1
  refine ⟨out, (Engine.store rule.id e₁ out.events).1, (Engine.store rule.id e₁ out.events).2,
    by simp only [complete, hw], hh₁.store rule.id _,
    fun k hk => live_store hh₁ (fun a ha => isLive_of_mem_eventsOf hp hown (hout ▸ ha)) ?_⟩
  refine hk.imp (fun hk => ?_) fun hk => hk.of_events hev
  rcases reported_of_workOff hw hk with hk | ⟨o, ho, rfl⟩ | hk
  · rcases hk with hk | hk <;> cases hk
  · rw [hout]
    exact exists_event_of_matched ho e.minted
  · exact absurd hk (rule.configured_not_mem hcloud answer k)

/-- What the datasources of a dispatch have come to so far: everything that was reported is live. -/
structure Gathered (rule : Rule) (own : String → Prop) (g : Gathering) (e : Engine) : Prop where
  healthy : e.Healthy
  listed : e.AllListed rule own
  live : ∀ k, g.fingerprints.contains k = true ∨ g.suppressed.contains k = true → e.Live rule.scope k
  named : ∀ k, g.fingerprints.contains k = true → k.isEmpty = false

theorem Gathered.quiet {g : Gathering} {e' : Engine} (h : Gathered rule own g e) (hq : Quiet e e') :
    Gathered rule own g e' := by
  have hev := Quietly.events hq.quietly
  exact ⟨h.healthy.quiet hq, h.listed.quiet hq, fun k hk => (h.live k hk).of_events hev, h.named⟩

/-- A completion is taken in when everything that it reports is live. -/
theorem Gathered.add {g : Gathering} (h : Gathered rule own g e) (datasource : String) (c : Completion)
    (hc : ∀ out pushed, c = .answered out pushed → ∀ k, out.Reports k → e.Live rule.scope k) :
    Gathered rule own (g.add e rule.id datasource c).1 (g.add e rule.id datasource c).2 := by
  unfold Gathering.add
  split
  · exact h
  · cases c with
    | failed error =>
      obtain ⟨hh, hl, hlive, hnamed⟩ := h.quiet (.noted e _)
      exact ⟨hh, hl, hlive, hnamed⟩
    | panicked p => exact ⟨h.healthy, h.listed, h.live, h.named⟩
    | answered out pushed =>
      have hlive := hc out pushed rfl
      refine ⟨h.healthy, h.listed, fun k hk => ?_, fun k hk => ?_⟩
      · rcases hk with hk | hk <;> rcases TextSet.contains_addAll.mp hk with hk | ⟨hk, -⟩
        · exact h.live k (.inl hk)
        · exact hlive k (.inl hk)
        · exact h.live k (.inr hk)
        · exact hlive k (.inr hk)
      · rcases TextSet.contains_addAll.mp hk with hk | ⟨-, hk⟩
        · exact h.named k hk
        · exact hk

/-- **When no call fails, everything that the datasources report is live at the end.** -/
theorem gather_live (hcloud : rule.query.family ≠ .cloudMetrics) (start : Nat) {readings : List Reading}
    (htasks : ∀ t ∈ AnswerTask.ofReadings (readings.map fun r => (rule, r)), t.KeepsApart rule own) {g : Gathering}
    (last : Nat) (h : Gathered rule own g e) :
    Gathered rule own (gather rule start e g last readings).1 (gather rule start e g last readings).2 := by
  induction readings generalizing g last e with
  | nil => exact h
  | cons r readings ih =>
    have hrest : ∀ t ∈ AnswerTask.ofReadings (readings.map fun r => (rule, r)), t.KeepsApart rule own :=
      fun t ht => htasks t (AnswerTask.ofReadings_tail ht)
    have hwaited := h.quiet (.waited e (start + r.elapsed))
    rw [gather]
    split
    · exact h
    · cases hr : r.reply with
      | error failure =>
        cases failure with
        | error error => exact ih hrest r.elapsed (hwaited.add r.datasource (.failed error) fun _ _ ha => by cases ha)
        | panic p => exact ih hrest r.elapsed (hwaited.add r.datasource (.panicked p) fun _ _ ha => by cases ha)
      | ok answer =>
        have htask := htasks _ (AnswerTask.ofAnswer_mem (r := r) List.mem_cons_self hr)
        obtain ⟨out, pushed, e', he', hh, hlive⟩ := complete_live hwaited.healthy hwaited.listed.placed hcloud
          r.datasource r.asked answer fun f hf k hk => (htask f hf k hk).mp rfl
        have hkept : ∀ answer', (Except.ok answer : Except Failure Answer) = .ok answer' →
            KeptBy [.ofAnswer rule r.datasource r.asked answer'] _ := fun answer' ha => (pointwise_listed fun t ht => by
          cases ha
          rw [List.mem_singleton.mp ht]
          exact htask).keptBy
        have hlisted := KeptBy.complete hkept hwaited.listed
        rw [he'] at hlisted ⊢
        have hg : Gathered rule own g e' :=
          ⟨hh, hlisted, fun k hk => hlive k (.inr (hwaited.live k hk)), h.named⟩
        refine ih hrest r.elapsed (hg.add r.datasource (.answered out pushed) fun out' pushed' ha k hk => ?_)
        cases ha
        exact hlive k (.inl hk)

/-- A dispatch ends in a report unless a client panics. -/
theorem panic_gather {start : Nat} {readings : List Reading} (h : ∀ r ∈ readings, ∀ p, r.reply ≠ .error (.panic p))
    {g : Gathering} (hg : g.panic = none) (last : Nat) :
    (gather rule start e g last readings).1.panic = none := by
  rw [← Option.not_isSome_iff_eq_none, isSome_panic_gather, hg]
  rintro (hs | ⟨r, hr, p, hp⟩)
  · cases hs
  · exact h r hr p hp

/-- When no call fails, everything in the report of a dispatch is live when it returns. -/
theorem dispatch_live (hh : e.Healthy) (hl : e.AllListed rule own) (hcloud : rule.query.family ≠ .cloudMetrics)
    {readings : List Reading} (hw : (Work.dispatch rule readings).KeepsApart rule own) {report : Report} {e' : Engine}
    (h : e.dispatch rule readings = (.ok report, e')) : e'.Healthy ∧ e'.AllListed rule own ∧
      (∀ k, k ∈ report.fingerprints ∨ k ∈ report.suppressed → e'.Live rule.scope k) ∧
      (∀ k ∈ report.fingerprints, k.isEmpty = false) ∧ ∀ k ∈ report.suppressed, k ∉ report.fingerprints := by
  have hempty : ∀ k, ¬(Table.empty : TextSet).contains k = true := fun k hk => nomatch hk
  have hg := gather_live hcloud e.time hw.answers (g := .empty) 0
    ⟨hh, hl, fun k hk => (hk.elim (hempty k) (hempty k)).elim, fun k hk => absurd hk (hempty k)⟩
  rw [dispatch] at h
  generalize gather rule e.time e .empty 0 readings = s at h hg
  obtain ⟨g, e₁⟩ := s
  obtain ⟨hr, rfl⟩ := Prod.mk.inj h
  unfold Gathering.report at hr
  split at hr
  · cases hr
  · cases hr
    refine ⟨hg.healthy, hg.listed, fun k hk => hg.live k (hk.imp Table.mem_keys.mp fun hk => ?_),
      fun k hk => hg.named k (Table.mem_keys.mp hk), fun k hk hf => ?_⟩
    · exact (TextSet.mem_keys_filter.mp hk).1
    · have hno := (TextSet.mem_keys_filter.mp hk).2
      rw [show g.fingerprints.contains k = true from Table.mem_keys.mp hf] at hno
      cases hno

end Dispatch

/-! ## Datasources side by side -/

section Race

variable {rule : Rule} {own : String → Prop} {e e' : Engine}

/-- A task of a rule whose events are live: what it has reported is live as well, or it has an event for it. -/
structure Carries (rule : Rule) (own : String → Prop) (e : Engine) (t : AnswerTask) : Prop where
  rule_eq : t.rule = rule
  concerns : ∀ f ∈ t.findings, ∀ fingerprint, f.Concerns fingerprint → own fingerprint
  configured : ∀ k, .configured k ∉ t.findings
  live : ∀ a ∈ t.outcome.events, a.IsLive rule own
  reported : ∀ k, t.outcome.Reports k → (∃ a ∈ t.outcome.events, a.fingerprint = k) ∨ e.Live rule.scope k

theorem Carries.mono {t : AnswerTask} (h : Carries rule own e t)
    (hlive : ∀ k, e.Live rule.scope k → e'.Live rule.scope k) : Carries rule own e' t :=
  ⟨h.rule_eq, h.concerns, h.configured, h.live, fun k hk => (h.reported k hk).imp_right (hlive k)⟩

/-- The task of an answer has reported nothing yet. -/
theorem carries_ofAnswer (hcloud : rule.query.family ≠ .cloudMetrics) {readings : List Reading} {t : AnswerTask}
    (ht : t ∈ AnswerTask.ofReadings (readings.map fun r => (rule, r))) (hapart : t.KeepsApart rule own) :
    Carries rule own e t := by
  obtain ⟨r, -, answer, -, rfl⟩ := AnswerTask.mem_ofReadings_of_rule ht
  refine ⟨rfl, fun f hf k hk => (hapart f hf k hk).mp rfl, rule.configured_not_mem hcloud answer, fun a ha => ?_,
    fun k hk => ?_⟩
  · cases ha
  · rcases hk with hk | hk <;> cases hk

/-- **When no call fails, one call of a task leaves all tasks with live events.** -/
theorem Carries.proceed {t : AnswerTask} (h : Carries rule own e t) (hh : e.Healthy) (hp : e.AllPlaced rule own) :
    (e.proceed t).2.Healthy ∧ (e.proceed t).2.AllPlaced rule own ∧ Carries rule own (e.proceed t).2 (e.proceed t).1 ∧
      ∀ k, e.Live rule.scope k → (e.proceed t).2.Live rule.scope k := by
  obtain ⟨hrule, hown, hconf, hlive, hrep⟩ := h
  unfold Engine.proceed
  split
  · next f fs hf =>
    obtain ⟨out, e₁, hw, hh₁⟩ := workOff_of_healthy t.rule t.datasource t.now [f] t.outcome hh
    have hev : e₁.events = e.events := by
      have := (workOff_events t.rule t.datasource t.now [f] e t.outcome).1
      rwa [hw] at this
    have hout := (workOff_spec _ hw).1
    rw [hrule] at hout
    have hfind : ∀ g ∈ [f], g ∈ t.findings := fun g hg => by
      rw [List.mem_singleton.mp hg, hf]
      exact List.mem_cons_self
    have hrest : ∀ g ∈ fs, g ∈ t.findings := fun g hg => hf ▸ List.mem_cons_of_mem f hg
    rw [hw]
    refine ⟨hh₁, hp.of_events hev, ⟨hrule, fun g hg => hown g (hrest g hg), fun k hk => hconf k (hrest _ hk),
      fun a ha => ?_, fun k hk => ?_⟩, fun k hk => hk.of_events hev⟩
    · rcases List.mem_append.mp (hout ▸ ha) with ha | ha
      · exact hlive a ha
      · exact isLive_of_mem_eventsOf hp (fun g hg => hown g (hfind g hg)) ha
    · show (∃ a ∈ out.events, a.fingerprint = k) ∨ _
      rw [hout]
      rcases reported_of_workOff hw hk with hk | ⟨o, ho, rfl⟩ | hk
      · exact (hrep k hk).imp (fun ⟨a, ha, hak⟩ => ⟨a, List.mem_append_left _ ha, hak⟩) fun hk => hk.of_events hev
      · obtain ⟨a, ha, hak⟩ := exists_event_of_matched ho e.minted
        exact .inl ⟨a, List.mem_append_right _ ha, hak⟩
      · exact absurd (hfind _ hk) (hconf k)
  · next a events hf hev =>
    have ha : a.IsLive rule own := hlive a (hev ▸ List.mem_cons_self)
    rw [store_of_healthy hh]
    refine ⟨hh, hp.stored ha, ⟨hrule, fun _ hg => (nomatch hg), fun _ hk => (nomatch hk), fun b hb => ?_,
      fun k hk => ?_⟩, fun k hk => live_stored (e := e.counted) ha (.inr hk)⟩
    · exact hlive b (hev ▸ List.mem_cons_of_mem a hb)
    · rcases hrep k hk with ⟨b, hb, hbk⟩ | hk
      · rcases List.mem_cons.mp (hev ▸ hb) with rfl | hb
        · exact .inr (live_stored (e := e.counted) ha (.inl hbk.symm))
        · exact .inl ⟨b, hb, hbk⟩
      · exact .inr (live_stored (e := e.counted) ha (.inr hk))
  · exact ⟨hh, hp, ⟨hrule, hown, hconf, hlive, hrep⟩, fun _ hk => hk⟩

/-- **When no call fails, what tasks report in any order is live or about to be.** -/
theorem raced_live (order : List Nat) {tasks : List AnswerTask} (hh : e.Healthy) (hp : e.AllPlaced rule own)
    (h : ∀ t ∈ tasks, Carries rule own e t) :
    ∀ t ∈ (e.raced tasks order).1, Carries rule own (e.raced tasks order).2 t := by
  induction order generalizing e tasks with
  | nil => exact h
  | cons i order ih =>
    rw [raced]
    split
    · exact ih hh hp h
    · next t hi =>
      obtain ⟨hh', hp', ht, hlive⟩ := (h t (List.mem_of_getElem? hi)).proceed hh hp
      refine ih hh' hp' fun x hx => ?_
      rcases List.mem_or_eq_of_mem_set hx with hx | rfl
      · exact (h x hx).mono hlive
      · exact ht

end Race

end Engine

/-! ## The pass after a dispatch -/

/-- A pass leaves a live alert that is current unconfirmed or active, if it has an entry whenever it is pending. -/
theorem Cell.pass_current_live {c : Cell} {scope : Scope} {s : Status} (hs : c.status scope = some s)
    (hlive : s ≠ .recovered) (hlisted : s = .pendingRecovery → c.since.isSome = true) (config : Config)
    (info : Option FaultCenter) (now : Instant) (isSuppressed : Bool) :
    (c.pass config scope info now true isSuppressed).2.status scope = some .preAlert ∨
      (c.pass config scope info now true isSuppressed).2.status scope = some .alerting := by
  obtain ⟨a, ha, rfl⟩ := Option.map_eq_some_iff.mp hs
  rw [pass_current]
  cases hc : c.since.isSome with
  | true =>
    have hallows : a.status.allows .alerting = true := by
      cases has : a.status with
      | preAlert | alerting | pendingRecovery => rfl
      | recovered => exact absurd has hlive
    simp only [if_true, ha, Job.result, hallows]
    exact .inr (status_moved ha .alerting now none)
  | false =>
    simp only [Bool.false_eq_true, if_false, hs]
    cases has : a.status with
    | preAlert => exact .inl rfl
    | alerting => exact .inr rfl
    | pendingRecovery =>
      rw [hlisted has] at hc
      cases hc
    | recovered => exact absurd has hlive

/-- What was reported is live, and after a pass in which no call fails what is current is unconfirmed or active, and
what is suppressed is still live. -/
def Engine.LeavesLive (config : Config) (rule : Rule) (current suppressed : List String) (e : Engine) : Prop :=
  (∀ k, k ∈ current ∨ k ∈ suppressed → e.Live rule.scope k) ∧
    ∀ now result e', e.reconcile config rule.scope current suppressed now = (result, e') → e.NoneFailed e' →
      (∃ r, result = .ok r) ∧ (∀ k ∈ current, e'.Shows rule.scope k .preAlert ∨ e'.Shows rule.scope k .alerting) ∧
        ∀ k ∈ suppressed, e'.Live rule.scope k

/-- **A pass leaves live what was reported live.** -/
theorem Engine.leavesLive {rule : Rule} {own : String → Prop} {e : Engine} (config : Config) (hl : e.AllListed rule own)
    {current suppressed : List String} (hlive : ∀ k, k ∈ current ∨ k ∈ suppressed → e.Live rule.scope k)
    (hnamed : ∀ k ∈ current, k.isEmpty = false) (hapart : ∀ k ∈ suppressed, k ∉ current) :
    e.LeavesLive config rule current suppressed := by
  refine ⟨hlive, fun now result e' hd hnone => ?_⟩
  have hpass := reconcile_of_noneFailed config rule.scope current suppressed now hl.1 rule.scope_keys.1
    rule.scope_keys.2 (by rwa [hd])
  rw [hd] at hpass
  obtain ⟨hresult, hcell⟩ := hpass
  refine ⟨hresult, ?_, ?_⟩ <;> intro k hk
  · obtain ⟨s, hs, hne⟩ := hlive k (.inl hk)
    have hcur : isCurrent current k = true := by simp [isCurrent, hnamed k hk, hk]
    rw [Shows, Shows, hcell k, hcur]
    exact Cell.pass_current_live hs hne (fun hp => lists_of_shows hl (hp ▸ hs)) ..
  · obtain ⟨s, hs, hne⟩ := hlive k (.inr hk)
    have hsup : suppressed.contains k = true := by simpa using hk
    refine ⟨s, ?_, hne⟩
    rw [Shows, hcell k, isCurrent_eq_false (hapart k hk), hsup, Cell.pass_suppressed]
    exact hs

/-- **What matches is live.** In a tick of a metrics, log, trace or Kubernetes rule in which no call fails, after any
run, everything that the dispatch reports is live when it returns, and after the pass what is current is unconfirmed or
active, and what is suppressed is still live. This holds whether the datasources are worked off one after the other or
side by side. -/
theorem matching_is_live (config : Config) (faults : Nat → Call → Bool) (infos : InfoCache) (works : List Work)
    (rule : Rule) (hcloud : rule.query.family ≠ .cloudMetrics) (own : String → Prop) (readings : List Reading)
    (hapart : ∀ w ∈ works ++ [.dispatch rule readings], w.KeepsApart rule own) :
    let e := (Engine.fresh faults infos).run config works
    ((∀ r ∈ readings, ∀ p, r.reply ≠ .error (.panic p)) → ∃ report, (e.dispatch rule readings).1 = .ok report) ∧
      (∀ report e₁, e.dispatch rule readings = (.ok report, e₁) → e.NoneFailed e₁ →
        e₁.LeavesLive config rule report.fingerprints report.suppressed) ∧
      ∀ order tasks e₁, e.raced (AnswerTask.ofReadings (readings.map fun r => (rule, r))) order = (tasks, e₁) →
        (∀ t ∈ tasks, t.IsDone) → e.NoneFailed e₁ →
          e₁.LeavesLive config rule (AnswerTask.current tasks) (AnswerTask.suppressed tasks) := by
  intro e
  have hearlier : ∀ w ∈ works, w.KeepsApart rule own := fun w hw => hapart w (List.mem_append_left _ hw)
  have hlisted : e.AllListed rule own :=
    Engine.listed_run hearlier config (Engine.listed_fresh rule own faults infos)
  have hwork := hapart _ (List.mem_append_right _ List.mem_cons_self)
  refine ⟨?_, ?_, ?_⟩
  · intro hno
    have hp : (Engine.gather rule e.time e .empty 0 readings).1.panic = none := Engine.panic_gather hno rfl 0
    simp only [Engine.dispatch, Gathering.report, hp]
    exact ⟨_, rfl⟩
  · intro report e₁ hd hnone
    have hsame := (Engine.local_dispatch rule readings).healthy_of_noneFailed (e := e) (by rwa [hd])
    rw [hd] at hsame
    obtain ⟨-, hl, hlive, hnamed, hapart⟩ := Engine.dispatch_live (Engine.healthy_healthy e) hlisted hcloud hwork hsame
    have hl₁ : e₁.AllListed rule own := hl
    exact Engine.leavesLive config hl₁ hlive hnamed hapart
  · intro order tasks e₁ hr hdone hnone
    have hl : e₁.AllListed rule own := by
      have hafter : (e.after config (.race (readings.map fun r => (rule, r)) order)).AllListed rule own :=
        Engine.listed_after (w := .race _ _) ⟨hwork.answers, fun _ _ _ _ h => by cases h⟩ config hlisted
      rwa [Engine.after, ← Engine.raced_snd, hr] at hafter
    have hsame := (Engine.local_raced order _).healthy_of_noneFailed (e := e) (by rwa [hr])
    rw [hr] at hsame
    have hcarries := Engine.raced_live order (Engine.healthy_healthy e) hlisted.placed
      fun t ht => Engine.carries_ofAnswer hcloud ht (hwork.answers t ht)
    rw [hsame] at hcarries
    have hreported : ∀ k, (∃ t ∈ tasks, t.outcome.Reports k) → e₁.Live rule.scope k := by
      rintro k ⟨t, ht, hk⟩
      rcases (hcarries t ht).reported k hk with ⟨a, ha, -⟩ | hlive
      · rw [(hdone t ht).2] at ha
        cases ha
      · exact hlive
    apply Engine.leavesLive config hl
    · rintro k (hk | hk)
      · obtain ⟨⟨t, ht, hk⟩, -⟩ := AnswerTask.contains_gathered.mp (Table.mem_keys.mp hk)
        exact hreported k ⟨t, ht, .inl hk⟩
      · obtain ⟨⟨t, ht, hk⟩, -⟩ := AnswerTask.contains_gathered.mp (TextSet.mem_keys_filter.mp hk).1
        exact hreported k ⟨t, ht, .inr hk⟩
    · intro k hk
      exact (AnswerTask.contains_gathered.mp (Table.mem_keys.mp hk)).2
    · intro k hk hcur
      have hno := (TextSet.mem_keys_filter.mp hk).2
      rw [show (AnswerTask.gathered (·.fingerprints) tasks).contains k = true from Table.mem_keys.mp hcur] at hno
      cases hno

/-- When the rule matches again after that, its fingerprint is reported. -/
theorem Engine.hit_missedAndBack :
    let k := Fingerprint.ofRule "r1"
    let e := (Engine.fresh (fun n _ => n == 14) .empty).run .standard Work.missedAndBack
    let hit : List Reading := [⟨"ds1", .epoch, 0, .ok (.count 5)⟩]
    let raced := e.raced (AnswerTask.ofReadings (hit.map fun r => (Rule.errorCount, r))) [0, 0]
    (∀ report ∈ (e.dispatch .errorCount hit).1.toOption, k ∈ report.fingerprints) ∧
      (∀ t ∈ raced.1, t.IsDone) ∧ k ∈ AnswerTask.current raced.1 := by
  decide +kernel

/-- An alert that is pending after an earlier failure is live when the rule matches again, and the pass makes it
active. -/
theorem matching_is_live_missedAndBack :
    let scope := Rule.errorCount.scope
    let k := Fingerprint.ofRule "r1"
    let e := (Engine.fresh (fun n _ => n == 14) .empty).run .standard Work.missedAndBack
    let hit : List Reading := [⟨"ds1", .epoch, 0, .ok (.count 5)⟩]
    Rule.errorCount.query.family ≠ .cloudMetrics ∧
      (∀ w ∈ Work.missedAndBack ++ [.dispatch .errorCount hit], w.KeepsApart .errorCount (· = k)) ∧
      (∀ r ∈ hit, ∀ p, r.reply ≠ .error (.panic p)) ∧ e.Shows scope k .pendingRecovery ∧
      (∃ report e₁, e.dispatch .errorCount hit = (.ok report, e₁) ∧ e.NoneFailed e₁ ∧ k ∈ report.fingerprints ∧
        e₁.LeavesLive .standard .errorCount report.fingerprints report.suppressed ∧
        let pass := e₁.recoverTick .standard scope report (Instant.epoch.after (.ofSecs 120))
        (∃ r, pass.1 = .ok r) ∧ (pass.2.Shows scope k .preAlert ∨ pass.2.Shows scope k .alerting)) ∧
      ∃ tasks e₁, e.raced (AnswerTask.ofReadings (hit.map fun r => (Rule.errorCount, r))) [0, 0] = (tasks, e₁) ∧
        (∀ t ∈ tasks, t.IsDone) ∧ e.NoneFailed e₁ ∧ k ∈ AnswerTask.current tasks ∧
        e₁.LeavesLive .standard .errorCount (AnswerTask.current tasks) (AnswerTask.suppressed tasks) := by
  obtain ⟨hpending, hcalls, -, -⟩ := Engine.run_missedAndBack
  obtain ⟨hreported, hdone, hcurrent⟩ := Engine.hit_missedAndBack
  -- The only call that fails has been made.
  have hfaults := Engine.faults_run .standard Work.missedAndBack (Engine.fresh (fun n _ => n == 14) .empty)
  intro scope k e hit
  have hcloud : Rule.errorCount.query.family ≠ .cloudMetrics := by decide
  have hapart : ∀ w ∈ Work.missedAndBack ++ [.dispatch .errorCount hit], w.KeepsApart .errorCount (· = k) :=
    fun w hw => (List.mem_append.mp hw).elim (Work.keepsApart_missedAndBack w) fun hw => by
      rw [List.mem_singleton.mp hw]
      exact Work.keepsApart_missedAndBack _ List.mem_cons_self
  have hno : ∀ r ∈ hit, ∀ p, r.reply ≠ .error (.panic p) := fun r hr p => by
    rw [List.mem_singleton.mp hr]
    exact nofun
  obtain ⟨hreport, hturn, hrace⟩ := matching_is_live .standard (fun n _ => n == 14) .empty Work.missedAndBack
    .errorCount hcloud (· = k) hit hapart
  refine ⟨hcloud, hapart, hno, hpending, ?_, _, _, (Prod.eta _).symm, hdone, ?_, hcurrent, ?_⟩
  · obtain ⟨report, hr⟩ := hreport hno
    have hk : k ∈ report.fingerprints := hreported report (by rw [hr]; rfl)
    have hn : e.NoneFailed (e.dispatch .errorCount hit).2 := Engine.noneFailed_of_once hfaults (.inr hcalls)
    have hpass : ∀ e₂, (e.dispatch .errorCount hit).2.NoneFailed e₂ :=
      (Engine.local_dispatch .errorCount hit).noneFailed_of_once hfaults hcalls
    cases hd : e.dispatch .errorCount hit with
    | mk result e₁ =>
      rw [hd] at hr hn hpass
      obtain rfl : result = .ok report := hr
      have hleaves := hturn report e₁ hd hn
      obtain ⟨hr, hshows, -⟩ := hleaves.2 _ _ _ (Prod.eta _).symm (hpass _)
      exact ⟨report, e₁, rfl, hn, hk, hleaves, hr, hshows k hk⟩
  · exact Engine.noneFailed_of_once hfaults (.inr hcalls)
  · exact hrace [0, 0] _ _ (Prod.eta _).symm hdone (Engine.noneFailed_of_once hfaults (.inr hcalls))

end Alerting
