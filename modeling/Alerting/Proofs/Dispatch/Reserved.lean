import Alerting.Proofs.Dispatch.Identity
import Alerting.Proofs.Dispatch.Instances

/-!
# Reserved labels

Every record of a match has the observed value, the severity and the name of the rule as labels, whatever labels the
backend and the rule have (`AnswerTask.Records.describes`). The label of the first value is put in only where there is
none (`AnswerTask.Starts.firstLabel`), and then it stays for the whole generation, which is what the events of one id
agree in (`Engine.Begun`).

So in any run the label of the first value is the one that the first record of the generation got, and that is the
observed value exactly if neither the backend nor the rule has another one under this name
(`reserved_labels_of_records`).
-/

namespace Alerting

/-! ## Records of matches -/

/-- The event is of an instance, and its labels say what was observed of it. -/
structure Event.Describes (a : Event) (rule : Rule) (i : Instance) : Prop where
  fingerprint : a.fingerprint = i.fingerprint
  severity : a.severity = i.severity
  valueLabel : a.labels.get? valueLabel = some i.value
  severityLabel : a.labels.get? severityLabel = some i.severity.name
  ruleNameLabel : a.labels.get? ruleNameLabel = some rule.name

namespace AnswerTask

/-- The event is made of a match of the task. -/
def Records (t : AnswerTask) (i : Instance) (a : Event) : Prop :=
  ∃ o, .matched o ∈ t.findings ∧ o.seen = i ∧ ∃ id record, a = o.event t.rule t.datasource id t.now record

/-- The event is made of a match of the task, and it is the first of a generation. -/
def Starts (t : AnswerTask) (i : Instance) (a : Event) : Prop :=
  ∃ o, .matched o ∈ t.findings ∧ o.seen = i ∧ ∃ id record, (∀ c, record = some c → c.status.isTerminal = true) ∧
    a = o.event t.rule t.datasource id t.now record

/-- The event is made of a finding of one of some tasks, or it is moved to another state. -/
inductive Makes (tasks : List AnswerTask) : Event → Prop
  | matched (t : AnswerTask) (i : Instance) (a : Event) : t ∈ tasks → t.Records i a → Makes tasks a
  | refreshed (t : AnswerTask) (fingerprint value : String) (c : Event) : t ∈ tasks →
      .unmatched fingerprint value ∈ t.findings → Makes tasks (c.refreshed t.rule value t.now)
  | moved (c : Event) (target : Status) (time : Instant) : Makes tasks (c.moved target time)

section Records

variable {t : AnswerTask} {i : Instance} {a : Event}

/-- The value of an instance is among the labels of its match. -/
theorem get?_valueLabel_seen {o : Observation} (h : (Finding.matched o).HasValue) :
    o.labels.get? valueLabel = some o.seen.value := by
  obtain ⟨v, hv⟩ := Option.isSome_iff_exists.mp (h o rfl)
  rw [Observation.seen, hv, Option.getD_some]

/-- **A record of a match has what was observed among its labels.** -/
theorem Records.describes (h : t.Records i a) (hvalue : ∀ f ∈ t.findings, f.HasValue) : a.Describes t.rule i := by
  obtain ⟨o, ho, rfl, id, record, rfl⟩ := h
  have hv := get?_valueLabel_seen (hvalue _ ho)
  refine ⟨(o.event_spec t.rule t.datasource id t.now record).1.2, ?_, ?_, ?_, ?_⟩
  · rcases Event.live_or_new record with ⟨c, rfl, hlive⟩ | hnew
    · rw [o.event_of_live t.rule t.datasource id t.now hlive]
      rfl
    · rw [o.event_of_new t.rule t.datasource id t.now hnew]
      rfl
  · exact Observation.value?_event t.rule t.datasource id t.now hv record
  · exact o.get?_event_severity t.rule t.datasource id t.now record
  · exact o.get?_event_ruleName t.rule t.datasource id t.now record

/-- **The first record of a generation has the label of the first value that is there already**, or else the observed
value. -/
theorem Starts.firstLabel (h : t.Starts i a) (hvalue : ∀ f ∈ t.findings, f.HasValue) :
    a.labels.get? firstValueLabel = some (i.firstLabel t.rule) := by
  obtain ⟨o, ho, rfl, id, record, hnew, rfl⟩ := h
  exact Observation.get?_event_firstValue_of_new t.rule t.datasource id t.now (get?_valueLabel_seen (hvalue _ ho)) hnew

/-- The instance of a record is one that the rule finds in the answer. -/
theorem Records.mem_instances (h : t.Records i a) {answer : Answer} (ht : t.findings = t.rule.findings answer) :
    i ∈ t.rule.instances answer := by
  obtain ⟨o, ho, rfl, -⟩ := h
  rw [← Rule.seen_findings, ← ht]
  exact List.mem_filterMap.mpr ⟨_, ho, rfl⟩

end Records

/-! ## First values -/

/-- An event of a finding takes over the first value of the record that it goes on with, or it starts a generation. -/
theorem takesOver_firstValue {tasks : List AnswerTask} {t : AnswerTask} (ht : t ∈ tasks) {f : Finding}
    (hf : f ∈ t.findings) (hvalue : f.HasValue) {cached : String → Option Event} {n : Nat} {a : Event}
    (hfirst : ∀ k c, cached k = some c → (c.labels.get? firstValueLabel).isSome = true)
    (ha : a ∈ f.events cached t.rule t.datasource t.now n) :
    ((a.labels.get? firstValueLabel).isSome = true ∧ Makes tasks a) ∧
      ((∃ k c, cached k = some c ∧ a.id = c.id ∧ a.labels.get? firstValueLabel = c.labels.get? firstValueLabel) ∨
        f.isMatch = true ∧ a.id = Engine.mintedId n ∧ ∃ i, t.Starts i a) := by
  cases f with
  | malformed | configured => cases ha
  | matched o =>
    have hrecords : t.Records o.seen a := ⟨o, hf, rfl, _, _, List.mem_singleton.mp ha⟩
    rcases Event.live_or_new (cached o.fingerprint) with ⟨c, hc, hlive⟩ | hnew
    · obtain ⟨v, hv⟩ := Option.isSome_iff_exists.mp (hfirst _ c hc)
      have hkept : a.labels.get? firstValueLabel = some v := by
        rw [List.mem_singleton.mp ha, hc]
        exact o.get?_event_firstValue_of_live t.rule t.datasource _ t.now hlive (by rw [Event.firstValue?, hv])
      refine ⟨⟨by rw [hkept]; rfl, .matched t _ a ht hrecords⟩, .inl ⟨_, c, hc, ?_, hkept.trans hv.symm⟩⟩
      rw [List.mem_singleton.mp ha, hc, o.event_of_live t.rule t.datasource _ t.now hlive]
      rfl
    · have hstarts : t.Starts o.seen a := ⟨o, hf, rfl, _, _, hnew, List.mem_singleton.mp ha⟩
      have hlabel := Observation.get?_event_firstValue_of_new t.rule t.datasource (Engine.mintedId n) t.now
        (get?_valueLabel_seen hvalue) hnew
      rw [← List.mem_singleton.mp ha] at hlabel
      refine ⟨⟨by rw [hlabel]; rfl, .matched t _ a ht hrecords⟩, .inr ⟨rfl, ?_, _, hstarts⟩⟩
      rw [List.mem_singleton.mp ha, o.event_of_new t.rule t.datasource _ t.now hnew]
      rfl
  | unmatched fingerprint value =>
    obtain ⟨c, hm, rfl⟩ := Option.map_eq_some_iff.mp (Option.mem_toList.mp ha)
    have hc := (Option.filter_eq_some_iff.mp hm).1
    have hkept : (c.refreshed t.rule value t.now).labels.get? firstValueLabel = c.labels.get? firstValueLabel :=
      (Table.get?_insert ..).trans (if_neg (by decide))
    exact ⟨⟨by rw [hkept]; exact hfirst _ c hc, .refreshed t fingerprint value c ht hf⟩, .inl ⟨_, c, hc, rfl, hkept⟩⟩

end AnswerTask

/-! ## Runs -/

namespace Engine

/-- The events of one id agree in their first value, and the first of them starts a generation. -/
structure Begun (tasks : List AnswerTask) (e : Engine) (flying : Event → Prop) : Prop where
  agrees : e.Agrees (·.labels.get? firstValueLabel)
    (fun a => (a.labels.get? firstValueLabel).isSome = true ∧ AnswerTask.Makes tasks a) flying
  started : ∀ id a, e.firstRecord id = some a → ∃ t ∈ tasks, ∃ i, t.Starts i a
  /-- An event in flight that will be the first of its id. -/
  opens : ∀ a, flying a → e.firstRecord a.id = none → ∃ t ∈ tasks, ∃ i, t.Starts i a

section Begun

variable {tasks : List AnswerTask} {e e' : Engine} {flying flying' : Event → Prop} {a : Event}

theorem Begun.quietly (h : e.Begun tasks flying) (hq : Quietly e e') (hf : ∀ a, flying' a → flying a) :
    e'.Begun tasks flying' := by
  refine ⟨h.agrees.quietly hq hf, fun id a ha => ?_, fun a hfly ha => ?_⟩
  · exact h.started id a (firstRecord_of_quietly hq id ▸ ha)
  · exact h.opens a (hf a hfly) (firstRecord_of_quietly hq a.id ▸ ha)

/-- A store is the first of its id, or it leaves the first one as it is. -/
theorem Begun.stored_of_agrees (h : e.Begun tasks flying)
    (hagrees : (e.stored a).Agrees (·.labels.get? firstValueLabel)
      (fun a => (a.labels.get? firstValueLabel).isSome = true ∧ AnswerTask.Makes tasks a) flying)
    (ha : e.firstRecord a.id = none → ∃ t ∈ tasks, ∃ i, t.Starts i a) : (e.stored a).Begun tasks flying := by
  refine ⟨hagrees, fun id b hb => ?_, fun b hfly hb => ?_⟩ <;> rw [firstRecord_stored] at hb
  · cases hfirst : e.firstRecord id with
    | some first =>
      rw [hfirst, Option.some_or] at hb
      exact h.started id b (hb ▸ hfirst)
    | none =>
      rw [hfirst, Option.none_or] at hb
      split at hb
      · next hid =>
        cases hb
        exact ha (hid ▸ hfirst)
      · cases hb
  · exact h.opens b hfly (Option.or_eq_none_iff.mp hb).1

/-- **The calls for answers keep the first values.** -/
theorem keptBy_begun (hvalue : ∀ t ∈ tasks, ∀ f ∈ t.findings, f.HasValue) :
    KeptBy tasks fun e flying => e.Begun tasks flying := by
  refine ⟨fun hq hf h => h.quietly hq hf, fun t ht f hf e e' flying hq hm h => ?_, fun {e flying a} ha h => ?_⟩
  · have hnew : ∀ a ∈ f.events (e.cached t.rule) t.rule t.datasource t.now e.minted, _ := fun a ha =>
      AnswerTask.takesOver_firstValue ht hf (hvalue t ht f hf)
        (fun k c hc => (h.agrees.sound c (h.agrees.met_cached t.rule k c hc)).1) ha
    refine ⟨h.agrees.looked t f (fun a ha => ?_) hq hm, fun id a ha => ?_, fun a hfly ha => ?_⟩
    · exact ⟨(hnew a ha).1, (hnew a ha).2.imp_right fun ⟨hmatch, hid, _⟩ => ⟨hmatch, hid⟩⟩
    · exact h.started id a (firstRecord_of_quietly hq id ▸ ha)
    · rw [firstRecord_of_quietly hq] at ha
      rcases hfly with hfly | hev
      · exact h.opens a hfly ha
      · rcases (hnew a hev).2 with ⟨k, c, hc, hid, -⟩ | ⟨-, -, i, hi⟩
        -- the record that it goes on with was stored before
        · obtain ⟨first, hfirst⟩ := exists_firstRecord (h.agrees.stored _ k c hc)
          rw [hid, hfirst] at ha
          cases ha
        · exact ⟨t, ht, i, hi⟩
  · exact h.stored_of_agrees (h.agrees.stored_of_flying ha) (h.opens a ha)

/-- **The changes of a pass keep the first values.** -/
theorem Begun.deal {scope : Scope} {fingerprint : String} (h : e.Begun tasks Landed)
    (hd : Deal scope fingerprint e e') : e'.Begun tasks Landed := by
  have hagrees := h.agrees.deal (fun {old target} time hs _ => ⟨⟨hs.1, .moved old target time⟩, rfl⟩) hd
  cases hd with
  | quiet hq => exact h.quietly hq.quietly fun _ ha => ha
  | moved old target time hf _ _ =>
    refine h.stored_of_agrees hagrees fun hnone => ?_
    obtain ⟨first, hfirst⟩ := exists_firstRecord (h.agrees.stored _ _ old hf)
    cases hfirst.symm.trans hnone
  | removed | missed | found => exact ⟨hagrees, h.started, h.opens⟩

theorem Begun.after (h : e.Begun tasks Landed) {w : Work} (hvalue : ∀ t ∈ tasks, ∀ f ∈ t.findings, f.HasValue)
    (hw : ∀ t ∈ w.tasks, t ∈ tasks) (config : Config) : (e.after config w).Begun tasks Landed :=
  ((keptBy_begun hvalue).mono hw).after config h.agrees.coherent (fun _ _ _ _ _ _ _ _ ht h => h.deal ht.deal) h

/-- **Every run keeps the first values.** -/
theorem Begun.run (h : e.Begun tasks Landed) (hvalue : ∀ t ∈ tasks, ∀ f ∈ t.findings, f.HasValue) {works : List Work}
    (hw : ∀ w ∈ works, ∀ t ∈ w.tasks, t ∈ tasks) (config : Config) : (e.run config works).Begun tasks Landed := by
  induction works generalizing e with
  | nil => exact h
  | cons w works ih =>
    exact ih (h.after hvalue (hw w List.mem_cons_self) config) fun x hx => hw x (List.mem_cons_of_mem w hx)

theorem begun_fresh (tasks : List AnswerTask) (faults : Nat → Call → Bool) (infos : InfoCache) :
    (fresh faults infos).Begun tasks Landed :=
  ⟨agrees_fresh _ _ faults infos, fun _ _ ha => (nomatch ha), fun _ ha => ha.elim⟩

end Begun

end Engine

/-- The task of a piece of work is about an answer. -/
theorem Work.exists_answer {w : Work} {t : AnswerTask} (ht : t ∈ w.tasks) :
    ∃ answer, t.findings = t.rule.findings answer := by
  have hreadings : ∀ {readings : List (Rule × Reading)}, t ∈ AnswerTask.ofReadings readings →
      ∃ answer, t.findings = t.rule.findings answer := by
    intro readings ht
    obtain ⟨x, -, answer, -, rfl⟩ := AnswerTask.mem_ofReadings ht
    exact ⟨answer, rfl⟩
  cases w with
  | dispatch rule readings => exact hreadings ht
  | race readings order => exact hreadings ht
  | recover => cases ht

/-- A label of a first value is the observed value exactly if there was none before, or the same. -/
theorem Instance.firstLabel_eq_value_iff (i : Instance) (rule : Rule) :
    i.firstLabel rule = i.value ↔ ∀ v, i.given rule = some v → v = i.value := by
  unfold firstLabel
  cases i.given rule with
  | none => simp
  | some v => simp

/-- **What the reserved labels of the records of matches say**, in any run, whichever calls fail. A record of an instance
that a rule finds in an answer has its value and its severity and the name of the rule as labels. The label of the first
value was set by the first record of the generation, which is of a match too: it is the label of this name that the
backend has, or else the rule, or else the observed value. So it is the value that was observed when the generation
first matched exactly if no other value is given under this name. -/
theorem reserved_labels_of_records (config : Config) (faults : Nat → Call → Bool) (infos : InfoCache)
    (works : List Work) :
    let e := (Engine.fresh faults infos).run config works
    let tasks := works.flatMap Work.tasks
    ∀ x ∈ e.writes, AnswerTask.Makes tasks x.2.event ∧
      (∀ t ∈ tasks, ∀ i, t.Records i x.2.event → x.2.event.Describes t.rule i ∧
        ∃ answer, t.findings = t.rule.findings answer ∧ i ∈ t.rule.instances answer) ∧
      ∃ first, e.firstRecord x.2.event.id = some first ∧ ∃ t ∈ tasks, ∃ i, t.Starts i first ∧
        x.2.event.labels.get? firstValueLabel = some (i.firstLabel t.rule) ∧
        (x.2.event.labels.get? firstValueLabel = some i.value ↔ ∀ v, i.given t.rule = some v → v = i.value) := by
  intro e tasks x hx
  have hvalue : ∀ t ∈ tasks, ∀ f ∈ t.findings, f.HasValue := by
    intro t ht f hf
    obtain ⟨w, -, ht⟩ := List.mem_flatMap.mp ht
    exact Work.hasValue ht hf
  have h : e.Begun tasks Engine.Landed := (Engine.begun_fresh tasks faults infos).run hvalue
    (fun w hw t ht => List.mem_flatMap.mpr ⟨w, hw, ht⟩) config
  have hmet : e.Met Engine.Landed x.2.event := .inl ⟨x, hx, rfl⟩
  refine ⟨(h.agrees.sound _ hmet).2, fun t ht i hi => ⟨hi.describes (hvalue t ht), ?_⟩, ?_⟩
  · obtain ⟨w, -, ht⟩ := List.mem_flatMap.mp ht
    obtain ⟨answer, hanswer⟩ := Work.exists_answer ht
    exact ⟨answer, hanswer, hi.mem_instances hanswer⟩
  · obtain ⟨first, hfirst⟩ := Engine.exists_firstRecord hmet
    obtain ⟨hmetFirst, hid⟩ := Engine.met_of_firstRecord hfirst
    obtain ⟨t, ht, i, hi⟩ := h.started _ first hfirst
    have hlabel : x.2.event.labels.get? firstValueLabel = some (i.firstLabel t.rule) :=
      (h.agrees.agree _ _ hmet hmetFirst hid.symm).trans (hi.firstLabel (hvalue t ht))
    refine ⟨first, hfirst, t, ht, i, hi, hlabel, ?_⟩
    rw [hlabel, Option.some.injEq]
    exact i.firstLabel_eq_value_iff t.rule

/-- A dispatch of a rule in which its log lines are counted. -/
def Work.counted (rule : Rule) (count : Nat) : Work := .dispatch rule [⟨"ds1", .epoch, 0, .ok (.count count)⟩]

theorem reserved_labels_of_active :
    ∃ x ∈ Engine.active.writes, x.2.event.status = .alerting ∧ ∃ first,
      Engine.active.firstRecord x.2.event.id = some first ∧ ∃ t i, AnswerTask.Starts t i first ∧
        x.2.event.labels.get? firstValueLabel = some (i.firstLabel t.rule) := by
  have hactive : ∃ x ∈ Engine.active.writes, x.2.event.status = .alerting := by decide +kernel
  obtain ⟨x, hx, hs⟩ := hactive
  obtain ⟨-, -, first, hfirst, t, -, i, hi, hlabel, -⟩ :=
    reserved_labels_of_records .standard (fun _ _ => false) .empty [.counted .errorCount 5, .counted .errorCount 5] x hx
  exact ⟨x, hx, hs, first, hfirst, t, i, hi, hlabel⟩

/-- A rule with an external label of the reserved name, for runs on fixed inputs. -/
def Rule.labelled : Rule := { Rule.errorCount with externalLabels := .ofList [(firstValueLabel, "none yet")] }

/-- Five lines are counted, and the first value is the rule's label. -/
theorem first_value_not_observed :
    ((Engine.fresh (fun _ _ => false) .empty).run .standard [.counted .labelled 5]).writes.map
      (fun x => (x.2.event.value?, x.2.event.labels.get? firstValueLabel)) = [(some "5", some "none yet")] := by
  decide +kernel

end Alerting
