import Alerting.Proofs.Dispatch.Findings
import Alerting.Proofs.Dispatch.Generations
import Alerting.Proofs.Recovery.Listed

/-!
# The identity of a generation

A generation of an alert has many records: a match starts it, further matches go on with it, an expression that does not
match refreshes its value, and passes move it from state to state. All of these records have the same `Event.identity`
(`generation_keeps_identity`). A refresh and a move change nothing of it, and a match takes it over from the record that
it goes on with, except for the rule and its place, which are those of the rule that matches. So no two rules may have a
fingerprint in common (`AnswerTask.SetApart`).

The first value is among the labels of every record, since every match has a value (`Rule.hasValue_of_mem_findings`).
Only a move to the last state sets the time of recovery, and no record is made of one in that state.
-/

namespace Alerting

/-! ## The observed value -/

/-- If a finding is a match, the observed value is among its labels. -/
def Finding.HasValue (f : Finding) : Prop := ∀ o, f = .matched o → (o.labels.get? valueLabel).isSome = true

/-- **Every match has the observed value among its labels.** -/
theorem Rule.hasValue_of_mem_findings {rule : Rule} {answer : Answer} {f : Finding} (h : f ∈ rule.findings answer) :
    f.HasValue := by
  rintro o rfl
  cases rule.canFind_of_mem h with
  | matched o fields hfields hv => exact hv

/-- A draft has all the labels of the observation. -/
theorem Event.isSome_draft {labels : Table String} {k : String} (h : (labels.get? k).isSome = true) (rule : Rule)
    (datasource fingerprint : String) (severity : Severity) (id : String) (now : Instant) :
    ((Event.draft rule datasource fingerprint severity labels id now).labels.get? k).isSome = true := by
  refine Table.isSome_insert (Table.isSome_insert ?_ _ _) _ _
  induction rule.externalLabels.toList generalizing labels with
  | nil => exact h
  | cons e es ih => exact ih (Table.isSome_insertIfNew h e.1 e.2)

/-! ## Identities -/

/-- What the records of one generation of an alert have in common. -/
structure Event.Identity where
  tenantId : String
  faultCenterId : String
  ruleId : String
  fingerprint : String
  firstTriggerTime : Instant
  firstValue : Option String
  escalation : Escalation
  deriving DecidableEq

def Event.identity (a : Event) : Event.Identity where
  tenantId := a.tenantId
  faultCenterId := a.faultCenterId
  ruleId := a.ruleId
  fingerprint := a.fingerprint
  firstTriggerTime := a.firstTriggerTime
  firstValue := a.labels.get? firstValueLabel
  escalation := a.escalation

/-- The rule of an event is this one, and the event stands in the rule's fault center. -/
def Event.IsOf (a : Event) (rule : Rule) : Prop :=
  a.tenantId = rule.tenantId ∧ a.faultCenterId = rule.faultCenterId ∧ a.ruleId = rule.id

/-- Among the rules of some tasks, one id stands for one place, and no two have a fingerprint in common. -/
structure AnswerTask.SetApart (tasks : List AnswerTask) : Prop where
  places : ∀ t ∈ tasks, ∀ u ∈ tasks, t.rule.id = u.rule.id →
    t.rule.tenantId = u.rule.tenantId ∧ t.rule.faultCenterId = u.rule.faultCenterId
  fingerprints : ∀ t ∈ tasks, ∀ u ∈ tasks, t.rule.id ≠ u.rule.id → ∀ f ∈ t.findings, ∀ g ∈ u.findings,
    ∀ fingerprint, f.Concerns fingerprint → ¬g.Concerns fingerprint

/-- An event has its first value, has recovered exactly if it says when, and was made for one of some tasks. -/
structure Event.Sound (tasks : List AnswerTask) (a : Event) : Prop where
  first : (a.labels.get? firstValueLabel).isSome = true
  ended : a.recoverTime.isSome = true ↔ a.status = .recovered
  made : ∃ t ∈ tasks, a.IsOf t.rule ∧ ∃ f ∈ t.findings, f.Concerns a.fingerprint

section Sound

variable {tasks : List AnswerTask}

/-- A move keeps the identity, and an event that has recovered says when. -/
theorem Event.Sound.moved {a : Event} (h : a.Sound tasks) {target : Status} (ha : a.status.allows target = true)
    (time : Instant) : (a.moved target time).Sound tasks := by
  refine ⟨h.first, ?_, h.made⟩
  show (if target = .recovered ∧ a.status ≠ .recovered then some time else a.recoverTime).isSome = true ↔ _
  split
  · next ht => exact iff_of_true rfl ht.1
  · next hn =>
    rw [h.ended]
    constructor
    · intro hs
      exact Decidable.byContradiction fun ht => Status.ne_recovered_of_allows ha ht hs
    · intro ht
      exact Decidable.byContradiction fun hs => hn ⟨ht, hs⟩

/-- The event of a match is the rule's, and it goes on with the first value and the escalation of a live record. -/
theorem Observation.event_kept (o : Observation) (rule : Rule) (datasource id : String) (now : Instant)
    (record : Option Event) (hvalue : (o.labels.get? valueLabel).isSome = true) :
    let event := o.event rule datasource id now record
    event.IsOf rule ∧ event.recoverTime = none ∧
      (∀ c, record = some c → c.status.isTerminal = false → (c.labels.get? firstValueLabel).isSome = true →
        event.labels.get? firstValueLabel = c.labels.get? firstValueLabel ∧ event.escalation = c.escalation) ∧
      ((∀ c, record = some c → c.status.isTerminal = true) → (event.labels.get? firstValueLabel).isSome = true) := by
  intro event
  rcases Event.live_or_new record with ⟨c, rfl, hlive⟩ | hnew
  · have he : event = _ := o.event_of_live rule datasource id now hlive
    rw [he]
    refine ⟨⟨rfl, rfl, rfl⟩, rfl, fun c' hc _ hfirst => ?_, fun hall => ?_⟩
    · cases hc
      obtain ⟨v, hv⟩ := Option.isSome_iff_exists.mp hfirst
      exact ⟨by simp only [annotate, Event.continued, Event.firstValue?, hv, Table.get?_insert_self], rfl⟩
    · rw [hall c rfl] at hlive
      cases hlive
  · have he : event = _ := o.event_of_new rule datasource id now hnew
    rw [he]
    refine ⟨⟨rfl, rfl, rfl⟩, rfl, fun c hc hlive => ?_, fun _ => ?_⟩
    · rw [hnew c hc] at hlive
      cases hlive
    · obtain ⟨v, hv⟩ := Option.isSome_iff_exists.mp
        (Event.isSome_draft hvalue rule datasource o.fingerprint o.severity id now)
      have hv : (o.draft rule datasource id now).value? = some v := hv
      simp only [annotate, Event.started, hv, Table.get?_insertIfNew, if_true, Option.isSome_some]

/-- **An event of a finding has the id and the identity of the record that it was made of, or it has a new id.** -/
theorem Finding.identity_of_mem_events (hapart : AnswerTask.SetApart tasks) {t : AnswerTask} (ht : t ∈ tasks)
    {f : Finding} (hf : f ∈ t.findings) (hvalue : f.HasValue) {cached : String → Option Event} {n : Nat} {a : Event}
    (hlies : ∀ k c, cached k = some c → c.LiesAt (eventsKey t.rule.tenantId t.rule.faultCenterId) k)
    (hsound : ∀ k c, cached k = some c → c.Sound tasks)
    (ha : a ∈ f.events cached t.rule t.datasource t.now n) :
    a.Sound tasks ∧ ((∃ k c, cached k = some c ∧ a.id = c.id ∧ a.identity = c.identity) ∨
      f.isMatch = true ∧ a.id = Engine.mintedId n) := by
  have hconcerns := (Finding.liesAt_of_mem_events hlies ha).2
  have horigin := Finding.origin_of_mem_events hlies ha
  cases f with
  | malformed | configured => cases ha
  | matched o =>
    obtain ⟨hof, hnone, hlive, hnew⟩ :=
      o.event_kept t.rule t.datasource (Engine.mintedId n) t.now (cached o.fingerprint) (hvalue o rfl)
    rw [← List.mem_singleton.mp ha] at hof hnone hlive hnew
    have hfp : a.fingerprint = o.fingerprint := by
      rcases hconcerns with ⟨o', ho', hfp⟩ | ⟨v, hv⟩
      · cases ho'
        exact hfp
      · cases hv
    have hended : a.recoverTime.isSome = true ↔ a.status = .recovered :=
      iff_of_false (by rw [hnone]; exact nofun) horigin.ne_recovered
    have hmade : ∃ u ∈ tasks, a.IsOf u.rule ∧ ∃ g ∈ u.findings, g.Concerns a.fingerprint :=
      ⟨t, ht, hof, .matched o, hf, hconcerns⟩
    cases horigin with
    | continued c hc hterminal hid _ hfirst =>
      rw [hfp] at hc
      have hcs := hsound _ c hc
      obtain ⟨hvalues, hesc⟩ := hlive c hc hterminal hcs.first
      refine ⟨⟨by rw [hvalues]; exact hcs.first, hended, hmade⟩, .inl ⟨_, c, hc, hid, ?_⟩⟩
      -- the record was made for a rule that has this fingerprint, so for this one
      obtain ⟨u, hu, hcof, g, hg, hgc⟩ := hcs.made
      have hcfp : c.fingerprint = o.fingerprint := (hlies _ c hc).2
      have hrule : t.rule.id = u.rule.id := Decidable.byContradiction fun hne =>
        hapart.fingerprints t ht u hu hne _ hf g hg c.fingerprint (.inl ⟨o, rfl, hcfp⟩) hgc
      obtain ⟨htenant, hcenter⟩ := hapart.places t ht u hu hrule
      unfold Event.identity
      rw [hof.1, hof.2.1, hof.2.2, hcof.1, hcof.2.1, hcof.2.2, hfp, hcfp, hfirst, hvalues, hesc, htenant, hcenter,
        hrule]
    | started _ hid _ hall =>
      rw [hfp] at hall
      exact ⟨⟨hnew hall, hended, hmade⟩, .inr ⟨rfl, hid⟩⟩
  | unmatched fingerprint value =>
    obtain ⟨c, hm, rfl⟩ := Option.map_eq_some_iff.mp (Option.mem_toList.mp ha)
    have hc := (Option.filter_eq_some_iff.mp hm).1
    have hfirst : (c.refreshed t.rule value t.now).labels.get? firstValueLabel = c.labels.get? firstValueLabel :=
      (Table.get?_insert ..).trans (if_neg (by decide))
    have hcs := hsound _ c hc
    refine ⟨⟨by rw [hfirst]; exact hcs.first, hcs.ended, hcs.made⟩, .inl ⟨_, c, hc, rfl, ?_⟩⟩
    unfold Event.identity
    rw [hfirst]
    rfl

end Sound

/-! ## Runs -/

namespace Engine

/-- All events that were ever met are sound, and those with one id have one identity. -/
structure Agreeing (tasks : List AnswerTask) (e : Engine) (flying : Event → Prop) : Prop where
  coherent : e.Coherent
  stored : ∀ key fingerprint a, e.events.find? key fingerprint = some a → e.Met Landed a
  numbered : ∀ a, e.Met flying a → ∃ n, n < e.minted ∧ a.id = mintedId n
  sound : ∀ a, e.Met flying a → a.Sound tasks
  agree : ∀ a b, e.Met flying a → e.Met flying b → a.id = b.id → a.identity = b.identity

section Agreeing

variable {tasks : List AnswerTask} {e e' : Engine} {flying flying' : Event → Prop} {a b : Event}

theorem agreeing_iff : e.Agreeing tasks flying ↔ e.Agrees Event.identity (Event.Sound tasks) flying :=
  ⟨fun h => ⟨h.coherent, h.stored, h.numbered, h.sound, h.agree⟩,
    fun h => ⟨h.coherent, h.stored, h.numbered, h.sound, h.agree⟩⟩

/-- **The calls for answers keep the identities.** -/
theorem keptBy_agreeing (hapart : AnswerTask.SetApart tasks) (hvalue : ∀ t ∈ tasks, ∀ f ∈ t.findings, f.HasValue) :
    KeptBy tasks fun e flying => e.Agreeing tasks flying := by
  refine ⟨fun hq hf h => ?_, fun t ht f hf e e' flying hq hm h => ?_, fun ha h => ?_⟩
  · exact agreeing_iff.mpr ((agreeing_iff.mp h).quietly hq hf)
  · have h := agreeing_iff.mp h
    refine agreeing_iff.mpr (h.looked t f (fun a ha => ?_) hq hm)
    exact Finding.identity_of_mem_events hapart ht hf (hvalue t ht f hf) (h.coherent.liesAt_cached t.rule)
      (fun k c hc => h.sound c (h.met_cached t.rule k c hc)) ha
  · exact agreeing_iff.mpr ((agreeing_iff.mp h).stored_of_flying ha)

/-- **The changes of a pass keep the identities.** -/
theorem Agreeing.deal {scope : Scope} {fingerprint : String} (h : e.Agreeing tasks Landed)
    (hd : Deal scope fingerprint e e') : e'.Agreeing tasks Landed :=
  agreeing_iff.mpr ((agreeing_iff.mp h).deal (fun time hs ha => ⟨hs.moved ha time, rfl⟩) hd)

/-- **Every piece of work keeps the identities.** -/
theorem Agreeing.after (h : e.Agreeing tasks Landed) (hapart : AnswerTask.SetApart tasks) {w : Work}
    (hvalue : ∀ t ∈ tasks, ∀ f ∈ t.findings, f.HasValue) (hw : ∀ t ∈ w.tasks, t ∈ tasks) (config : Config) :
    (e.after config w).Agreeing tasks Landed :=
  ((keptBy_agreeing hapart hvalue).mono hw).after config h.coherent
    (fun _ _ _ _ _ _ _ _ ht h => h.deal ht.deal) h

/-- **Every run keeps the identities.** -/
theorem Agreeing.run (h : e.Agreeing tasks Landed) (hapart : AnswerTask.SetApart tasks)
    (hvalue : ∀ t ∈ tasks, ∀ f ∈ t.findings, f.HasValue) {works : List Work}
    (hw : ∀ w ∈ works, ∀ t ∈ w.tasks, t ∈ tasks) (config : Config) : (e.run config works).Agreeing tasks Landed := by
  induction works generalizing e with
  | nil => exact h
  | cons w works ih =>
    exact ih (h.after hapart hvalue (hw w List.mem_cons_self) config) fun x hx => hw x (List.mem_cons_of_mem w hx)

variable (tasks) in
theorem agreeing_fresh (faults : Nat → Call → Bool) (infos : InfoCache) :
    (fresh faults infos).Agreeing tasks Landed := agreeing_iff.mpr (agrees_fresh _ _ faults infos)

end Agreeing

end Engine

theorem Work.hasValue {w : Work} {t : AnswerTask} (ht : t ∈ w.tasks) {f : Finding} (hf : f ∈ t.findings) :
    f.HasValue := by
  have hreadings : ∀ {readings : List (Rule × Reading)}, t ∈ AnswerTask.ofReadings readings → f.HasValue := by
    intro readings ht
    obtain ⟨x, -, answer, -, rfl⟩ := AnswerTask.mem_ofReadings ht
    exact Rule.hasValue_of_mem_findings hf
  cases w with
  | dispatch rule readings => exact hreadings ht
  | race readings order => exact hreadings ht
  | recover => cases ht

/-- **A generation keeps its identity.** All events that were ever stored under one id have the same tenant, fault
center, rule, fingerprint, first trigger time, first value and escalation, and a stored event says when it has recovered
exactly if it has. -/
theorem generation_keeps_identity (config : Config) (faults : Nat → Call → Bool) (infos : InfoCache)
    (works : List Work) (hapart : AnswerTask.SetApart (works.flatMap Work.tasks)) :
    let e := (Engine.fresh faults infos).run config works
    (∀ x ∈ e.writes, ∀ y ∈ e.writes, x.2.event.id = y.2.event.id → x.2.event.identity = y.2.event.identity) ∧
      ∀ x ∈ e.writes, x.2.event.recoverTime.isSome = true ↔ x.2.event.status = .recovered := by
  intro e
  have hvalue : ∀ t ∈ works.flatMap Work.tasks, ∀ f ∈ t.findings, f.HasValue := by
    intro t ht f hf
    obtain ⟨w, -, ht⟩ := List.mem_flatMap.mp ht
    exact Work.hasValue ht hf
  have hworks : ∀ w ∈ works, ∀ t ∈ w.tasks, t ∈ works.flatMap Work.tasks :=
    fun w hw t ht => List.mem_flatMap.mpr ⟨w, hw, ht⟩
  have h : e.Agreeing _ Engine.Landed := (Engine.agreeing_fresh _ faults infos).run hapart hvalue hworks config
  exact ⟨fun x hx y hy => h.agree _ _ (.inl ⟨x, hx, rfl⟩) (.inl ⟨y, hy, rfl⟩),
    fun x hx => (h.sound _ (.inl ⟨x, hx, rfl⟩)).ended⟩

/-- An alert becomes active, is missed and recovers, and then it begins again. Another rule matches meanwhile. -/
def Work.twoGenerations : List Work :=
  let hit (rule : Rule) (count : Nat) := Work.dispatch rule [⟨"ds1", .epoch, 0, .ok (.count count)⟩]
  let miss (n : Nat) := Work.recover Rule.errorCount.scope [] [] (Instant.epoch.after (.ofSecs n))
  [hit .errorCount 5, hit .errorCount 6, hit .errorCount₂ 5, miss 60, miss 90, hit .errorCount 7]

theorem Work.setApart_twoGenerations : AnswerTask.SetApart (Work.twoGenerations.flatMap Work.tasks) := by
  have htask : ∀ t ∈ Work.twoGenerations.flatMap Work.tasks, (t.rule = .errorCount ∨ t.rule = .errorCount₂) ∧
      ∀ f ∈ t.findings, ∀ fingerprint, f.Concerns fingerprint → fingerprint = Fingerprint.ofRule t.rule.id := by
    have hhit : ∀ (rule : Rule) (count : Nat), rule.query.family = .logs → ∀ t ∈
        (Work.dispatch rule [⟨"ds1", .epoch, 0, .ok (.count count)⟩]).tasks, t.rule = rule ∧
          ∀ f ∈ t.findings, ∀ fingerprint, f.Concerns fingerprint → fingerprint = Fingerprint.ofRule t.rule.id := by
      intro rule count hlogs t ht
      obtain rfl := List.mem_singleton.mp ht
      exact ⟨rfl, fun f hf fingerprint hc => Rule.eq_of_concerns hlogs hf hc⟩
    intro t ht
    obtain ⟨w, hw, ht⟩ := List.mem_flatMap.mp ht
    simp only [twoGenerations, List.mem_cons, List.not_mem_nil, or_false] at hw
    rcases hw with rfl | rfl | rfl | rfl | rfl | rfl
    · exact (hhit .errorCount 5 rfl t ht).imp_left .inl
    · exact (hhit .errorCount 6 rfl t ht).imp_left .inl
    · exact (hhit .errorCount₂ 5 rfl t ht).imp_left .inr
    · cases ht
    · cases ht
    · exact (hhit .errorCount 7 rfl t ht).imp_left .inl
  refine ⟨fun t ht u hu _ => ?_, fun t ht u hu hne f hf g hg fingerprint hfc hgc => ?_⟩
  · rcases (htask t ht).1 with h | h <;> rcases (htask u hu).1 with h' | h' <;> rw [h, h'] <;> exact ⟨rfl, rfl⟩
  · have hsame := ((htask t ht).2 f hf _ hfc).symm.trans ((htask u hu).2 g hg _ hgc)
    rcases (htask t ht).1 with h | h <;> rcases (htask u hu).1 with h' | h' <;> rw [h, h'] at hsame hne
    · exact hne rfl
    · exact Rule.ofRule_errorCount₂ hsame.symm
    · exact Rule.ofRule_errorCount₂ hsame
    · exact hne rfl

/-- The alert has four records under its first id and one under its second. -/
theorem generation_keeps_identity_twoGenerations :
    let e := (Engine.fresh (fun _ _ => false) .empty).run .standard Work.twoGenerations
    AnswerTask.SetApart (Work.twoGenerations.flatMap Work.tasks) ∧
      (e.writes.map fun x => (x.2.event.id, x.2.event.status, x.2.event.value?)) =
        [("event/3", .preAlert, some "7"), ("event/0", .recovered, some "6"), ("event/0", .pendingRecovery, some "6"),
          ("event/2", .preAlert, some "5"), ("event/0", .alerting, some "6"), ("event/0", .preAlert, some "5")] ∧
      (∀ x ∈ e.writes, ∀ y ∈ e.writes, x.2.event.id = y.2.event.id → x.2.event.identity = y.2.event.identity) ∧
      ∀ x ∈ e.writes, x.2.event.recoverTime.isSome = true ↔ x.2.event.status = .recovered :=
  ⟨Work.setApart_twoGenerations, by decide +kernel,
    generation_keeps_identity .standard _ .empty _ Work.setApart_twoGenerations⟩

end Alerting
