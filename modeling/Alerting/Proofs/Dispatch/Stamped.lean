import Alerting.Proofs.Dispatch.Sent

/-!
# Stamps of datasources side by side

Between the look-ups of one datasource and its stores, others may store the same record. Whichever calls fail, a
fingerprint that is outranked in no answer is not stamped (`Engine.keptBy_lastSent`). When no call fails, one that is
outranked wherever it is found is stamped by the first task that stores it, and no later event takes the stamp away
(`AnswerTask.Outranks.proceed`, `Engine.raced_stamped`). Between these lies what is reported as current and counts as
sent all the same (`current_counts_as_sent`).
-/

namespace Alerting

namespace Engine

/-- **What is outranked nowhere is not stamped**, whichever calls fail and in whatever order tasks proceed. -/
theorem keptBy_lastSent (rule : Rule) (k : String) {tasks : List AnswerTask} (sent : Option Instant)
    (htasks : ∀ t ∈ tasks, t.rule = rule ∧ ∀ f ∈ t.findings, f.outranked? ≠ some k) :
    KeptBy tasks fun e flying => e.Coherent ∧ e.lastSent rule k = sent ∧
      ∀ a, flying a → a.fingerprint = k → a.status.isTerminal = false ∧ a.lastSendTime = sent := by
  refine ⟨?quiet, ?looked, ?stored⟩
  case quiet =>
    rintro e e' flying flying' hq hsub ⟨hc, hsent, hfly⟩
    refine ⟨hq (fun hq h => h.quiet hq) hc, (lastSent_of_events hq.events).trans hsent, fun a ha => ?_⟩
    exact hfly a (hsub a ha)
  case looked =>
    rintro t ht f hf e e' flying hq - ⟨hc, hsent, hfly⟩
    obtain ⟨rfl, hoff⟩ := htasks t ht
    refine ⟨hq (fun hq h => h.quiet hq) hc, (lastSent_of_events hq.events).trans hsent, ?_⟩
    rintro a (ha | ha) hk
    · exact hfly a ha hk
    · obtain ⟨-, -, hlive, ha⟩ := Finding.sent_of_mem_events (hc.liesAt_cached t.rule) ha
      rw [hk, if_neg (hoff f hf)] at ha
      exact ⟨hlive, ha.trans hsent⟩
  case stored =>
    rintro e flying a ha ⟨hc, hsent, hfly⟩
    refine ⟨hc.stored a, ?_, hfly⟩
    by_cases hat : a.LiesAt (eventsKey rule.tenantId rule.faultCenterId) k
    · obtain ⟨hlive, hsent'⟩ := hfly a ha hat.2
      rw [lastSent, liveRecord_stored_self hat hlive]
      exact hsent'
    · rw [lastSent, liveRecord_stored_of_ne hat]
      exact hsent

/-- Datasources that find a fingerprint outranked in no answer do not stamp its record. -/
theorem lastSent_race {rule : Rule} {k : String} {readings : List Reading} {e : Engine} (hc : e.Coherent)
    (hno : ∀ r ∈ readings, ∀ answer, r.reply = .ok answer → k ∉ rule.outranked answer) (order : List Nat) :
    (e.race (AnswerTask.ofReadings (readings.map fun r => (rule, r))) order).lastSent rule k = e.lastSent rule k := by
  have hkept : KeptBy (AnswerTask.ofReadings (readings.map fun r => (rule, r))) _ :=
    keptBy_lastSent rule k (e.lastSent rule k) fun t ht => by
      obtain ⟨r, hr, answer, ha, rfl⟩ := AnswerTask.mem_ofReadings_of_rule ht
      exact ⟨rfl, fun f hf hout => hno r hr answer ha (List.mem_filterMap.mpr ⟨f, hf, hout⟩)⟩
  refine (hkept.race_of_begun order (fun t ht => ?_) ⟨hc, rfl, fun _ ha => ha.elim⟩).2.1
  obtain ⟨r, hr, answer, ha, rfl⟩ := AnswerTask.mem_ofReadings_of_rule ht
  rfl

end Engine

/-- An event in a rule's fault center that was stamped as sent when one of some datasources was asked. -/
structure Event.IsStamped (rule : Rule) (readings : List Reading) (a : Event) : Prop where
  key : EventCache.keyOf a = eventsKey rule.tenantId rule.faultCenterId
  live : a.status.isTerminal = false
  sent : ∃ r ∈ readings, a.lastSendTime = some r.asked

/-- A task that finds a fingerprint outranked or not at all. -/
structure AnswerTask.Outranks (rule : Rule) (readings : List Reading) (k : String) (t : AnswerTask) : Prop where
  rule_eq : t.rule = rule
  asked : ∃ r ∈ readings, t.now = r.asked
  outranked : ∀ f ∈ t.findings, f.fingerprint? = some k → f.outranked? = some k
  stamped : ∀ a ∈ t.outcome.events, a.fingerprint = k → a.IsStamped rule readings

/-- A task that is yet to store an event of a fingerprint. -/
def AnswerTask.Awaits (k : String) (t : AnswerTask) : Prop :=
  (∃ f ∈ t.findings, f.fingerprint? = some k) ∨ ∃ a ∈ t.outcome.events, a.fingerprint = k

namespace Engine

/-- The record of a fingerprint was stamped as sent when one of some datasources was asked. -/
def Stamped (e : Engine) (rule : Rule) (readings : List Reading) (k : String) : Prop :=
  ∃ a, e.cached rule k = some a ∧ a.IsStamped rule readings

section Race

variable {e : Engine} {rule : Rule} {readings : List Reading} {k : String}

/-- A stored event is stamped, or it is one of another fingerprint. -/
theorem stamped_stored {a : Event} (ha : a.fingerprint = k → a.IsStamped rule readings)
    (h : a.fingerprint = k ∨ e.Stamped rule readings k) : (e.stored a).Stamped rule readings k := by
  by_cases hk : a.fingerprint = k
  · exact ⟨a, find?_stored_self ⟨(ha hk).key, hk⟩, ha hk⟩
  · obtain ⟨b, hb, hstamped⟩ := h.resolve_left hk
    exact ⟨b, (find?_stored_of_ne fun hat => hk hat.2).trans hb, hstamped⟩

end Race

end Engine

namespace AnswerTask.Outranks

variable {e : Engine} {rule : Rule} {readings : List Reading} {k : String} {t : AnswerTask}

/-- The events of a finding of the task are stamped, or they are of other fingerprints. -/
theorem isStamped_of_mem_events (h : t.Outranks rule readings k) (hc : e.Coherent) {f : Finding} (hf : f ∈ t.findings)
    {a : Event} (ha : a ∈ f.events (e.cached rule) rule t.datasource t.now e.minted) (hk : a.fingerprint = k) :
    a.IsStamped rule readings := by
  obtain ⟨hf', hlies, hlive, hsent⟩ := Finding.sent_of_mem_events (hc.liesAt_cached rule) ha
  obtain ⟨r, hr, hnow⟩ := h.asked
  rw [hk] at hf' hsent
  rw [if_pos (h.outranked f hf hf'), hnow] at hsent
  exact ⟨hlies.1, hlive, r, hr, hsent⟩

/-- When no call fails, a look-up leaves the task with the event of its finding. -/
theorem looked (h : t.Outranks rule readings k) (hh : e.Healthy) (hc : e.Coherent) {f : Finding} {fs : List Finding}
    (hf : t.findings = f :: fs) : ∃ out e', e.workOff t.rule t.datasource t.now t.outcome [f] = (.ok out, e') ∧
      e'.Healthy ∧ e'.events = e.events ∧ (t.left fs out).Outranks rule readings k ∧
      (t.Awaits k → (t.left fs out).Awaits k) := by
  obtain rfl := h.rule_eq
  obtain ⟨out, e', hw, hh'⟩ := Engine.workOff_of_healthy t.rule t.datasource t.now [f] t.outcome hh
  have hev : e'.events = e.events := by
    have := (Engine.workOff_events t.rule t.datasource t.now [f] e t.outcome).1
    rwa [hw] at this
  have hout : out.events = t.outcome.events ++ f.events (e.cached t.rule) t.rule t.datasource t.now e.minted := by
    rw [(Engine.workOff_spec _ hw).1, eventsOf, eventsOf, List.append_nil]
  have hmem : f ∈ t.findings := hf ▸ List.mem_cons_self
  refine ⟨out, e', hw, hh', hev, ⟨rfl, h.asked, fun g hg => ?_, fun a ha hk => ?_⟩, ?_⟩
  · exact h.outranked g (hf ▸ List.mem_cons_of_mem f hg)
  · rcases List.mem_append.mp (hout ▸ ha) with ha | ha
    · exact h.stamped a ha hk
    · exact h.isStamped_of_mem_events hc hmem ha hk
  · rintro (⟨g, hg, hk⟩ | ⟨a, ha, hk⟩)
    · rcases List.mem_cons.mp (hf ▸ hg) with rfl | hg
      · obtain ⟨b, hb, hbk⟩ := Finding.exists_event_of_leaves (hc.liesAt_cached t.rule)
          (Finding.leaves_of_outranked? (h.outranked g hmem hk) _)
        exact .inr ⟨b, hout ▸ List.mem_append_right _ (hb ▸ List.mem_singleton_self b), hbk⟩
      · exact .inl ⟨g, hg, hk⟩
    · exact .inr ⟨a, hout ▸ List.mem_append_left _ ha, hk⟩

/-- **When no call fails, one call of a task keeps a record stamped**, and the task stamps it or is yet to do so if it
was to do so before. -/
theorem proceed (h : t.Outranks rule readings k) (hh : e.Healthy) (hc : e.Coherent) :
    (e.proceed t).2.Healthy ∧ (e.proceed t).2.Coherent ∧ (e.proceed t).1.Outranks rule readings k ∧
      (e.Stamped rule readings k → (e.proceed t).2.Stamped rule readings k) ∧
      (t.Awaits k → (e.proceed t).2.Stamped rule readings k ∨ (e.proceed t).1.Awaits k) := by
  unfold Engine.proceed
  split
  · next f fs hf =>
    obtain ⟨out, e', hw, hh', hev, hleft, hawaits⟩ := h.looked hh hc hf
    rw [hw]
    have hc' : e'.Coherent := by
      unfold Engine.Coherent
      rwa [hev]
    refine ⟨hh', hc', hleft, fun hst => ?_, fun ht => .inr (hawaits ht)⟩
    unfold Engine.Stamped Engine.cached
    rwa [hev]
  · next a events hf hev =>
    have ha : a.fingerprint = k → a.IsStamped rule readings := h.stamped a (hev ▸ List.mem_cons_self)
    rw [Engine.store_of_healthy hh]
    refine ⟨hh, hc.stored a, ⟨h.rule_eq, h.asked, fun _ hg => (nomatch hg), fun b hb => ?_⟩,
      fun hst => Engine.stamped_stored (e := e.counted) ha (.inr hst), ?_⟩
    · exact h.stamped b (hev ▸ List.mem_cons_of_mem a hb)
    · rintro (⟨g, hg, -⟩ | ⟨b, hb, hk⟩)
      · exact nomatch (hf ▸ hg : g ∈ [])
      · rcases List.mem_cons.mp (hev ▸ hb) with rfl | hb
        · exact .inl (Engine.stamped_stored (e := e.counted) ha (.inl hk))
        · exact .inr (.inr ⟨b, hb, hk⟩)
  · exact ⟨hh, hc, h, id, .inr⟩

end AnswerTask.Outranks

/-- **When no call fails, tasks in any order stamp what is outranked wherever it is found.** -/
theorem Engine.raced_stamped {rule : Rule} {readings : List Reading} {k : String} (order : List Nat) {e : Engine}
    {tasks : List AnswerTask} (hh : e.Healthy) (hc : e.Coherent) (htasks : ∀ t ∈ tasks, t.Outranks rule readings k)
    (h : e.Stamped rule readings k ∨ ∃ t ∈ tasks, t.Awaits k) :
    (e.raced tasks order).2.Stamped rule readings k ∨ ∃ t ∈ (e.raced tasks order).1, t.Awaits k := by
  induction order generalizing e tasks with
  | nil => exact h
  | cons i order ih =>
    rw [raced]
    split
    · exact ih hh hc htasks h
    · next t hi =>
      obtain ⟨hh', hc', ht, hstamped, hawaits⟩ := (htasks t (List.mem_of_getElem? hi)).proceed hh hc
      have hself : (tasks.set i (e.proceed t).1)[i]? = some (e.proceed t).1 := getElem?_set_of_getElem? hi _
      refine ih hh' hc' (fun x hx => ?_) ?_
      · rcases List.mem_or_eq_of_mem_set hx with hx | rfl
        · exact htasks x hx
        · exact ht
      · rcases h with h | ⟨x, hx, hk⟩
        · exact .inl (hstamped h)
        · obtain ⟨j, hj⟩ := List.getElem?_of_mem hx
          by_cases hij : i = j
          · subst hij
            obtain rfl : t = x := Option.some.inj (hi.symm.trans hj)
            exact (hawaits hk).imp_right fun hk => ⟨_, List.mem_of_getElem? hself, hk⟩
          · exact .inr ⟨x, List.mem_of_getElem? ((List.getElem?_set_ne hij).trans hj), hk⟩

/-- When no call fails, datasources that find a fingerprint outranked wherever they find it leave its record stamped. -/
theorem Engine.stamped_raced_readings {rule : Rule} {readings : List Reading} {k : String} {e : Engine} (hh : e.Healthy)
    (hc : e.Coherent) (hsome : ∃ r ∈ readings, ∃ answer, r.reply = .ok answer ∧ k ∈ rule.outranked answer)
    (hall : ∀ r ∈ readings, ∀ answer, r.reply = .ok answer → ∀ f ∈ rule.findings answer, f.fingerprint? = some k →
      f.outranked? = some k) (order : List Nat)
    (hdone : ∀ t ∈ (e.raced (AnswerTask.ofReadings (readings.map fun r => (rule, r))) order).1, t.IsDone) :
    (e.raced (AnswerTask.ofReadings (readings.map fun r => (rule, r))) order).2.Stamped rule readings k := by
  have houtranks : ∀ t ∈ AnswerTask.ofReadings (readings.map fun r => (rule, r)), t.Outranks rule readings k := by
    intro t ht
    obtain ⟨r, hr, answer, ha, rfl⟩ := AnswerTask.mem_ofReadings_of_rule ht
    exact ⟨rfl, ⟨r, hr, rfl⟩, hall r hr answer ha, fun _ ha => (nomatch ha)⟩
  obtain ⟨r, hr, answer, ha, hk⟩ := hsome
  obtain ⟨f, hf, hout⟩ := List.mem_filterMap.mp hk
  have hawaits : (AnswerTask.ofAnswer rule r.datasource r.asked answer).Awaits k :=
    .inl ⟨f, hf, Finding.fingerprint?_of_outranked? hout⟩
  refine (raced_stamped order hh hc houtranks (.inr ⟨_, AnswerTask.ofAnswer_mem hr ha, hawaits⟩)).resolve_right ?_
  rintro ⟨t, ht, ⟨f, hf, -⟩ | ⟨a, ha, -⟩⟩
  · exact nomatch ((hdone t ht).1 ▸ hf : f ∈ [])
  · exact nomatch ((hdone t ht).2 ▸ ha : a ∈ [])

/-! ## Thresholds that a value meets -/

/-- A series without labels. -/
def MetricSeries.ofValue (value : Nat) : MetricSeries := ⟨.empty, .ofNat value, .epoch⟩

/-- What a datasource answers about one series without labels. -/
def Reading.ofValue (datasource : String) (seconds value : Nat) : Reading :=
  ⟨datasource, Instant.epoch.after (.ofSecs seconds), 0, .ok (.vector [.ofValue value])⟩

theorem Reading.not_panicked_ofValue (datasource : String) (seconds value : Nat) :
    ¬Panicked (Reading.ofValue datasource seconds value).reply := by
  rintro ⟨p, hp⟩
  cases hp

/-- The finding of a check that is met. -/
def Check.finding (c : Check) (series : MetricSeries) (outranked : Bool) : Finding :=
  .matched (Metrics.observation "r1" "load" series outranked c)

/-- A value above a bound, as a check of a severity. -/
def Check.above (severity : String) (bound : Nat) : Check := ⟨⟨severity⟩, .greater, .ofNat bound⟩

/-- A metrics rule with a threshold for each of two severities. -/
def Rule.twoSeverities : Rule :=
  { twoThresholds with severityRules := [⟨⟨"P1"⟩, "> 90"⟩, ⟨.standard, "> 70"⟩] }

/-- A metrics rule with a threshold for one severity and two for a less urgent one. -/
def Rule.threeBounds : Rule :=
  { twoThresholds with severityRules := [⟨⟨"P1"⟩, "> 75"⟩, ⟨.standard, "> 70"⟩, ⟨.standard, "> 90"⟩] }

namespace Rule

/-- The findings on one series when the severities are listed in order. -/
theorem findings_of_pairwise {rule : Rule} {query : String} (hq : rule.query = .metrics query)
    (hs : rule.severityRules.Pairwise fun a b => a.severity.le b.severity) (series : MetricSeries) :
    rule.findings (.vector [series]) = Metrics.judge rule.id query series false rule.severityRules := by
  simp only [findings, hq, Metrics.findings, orderedSeverityRules_of_pairwise hs, List.flatMap_cons, List.flatMap_nil,
    List.append_nil]

end Rule

/-- The fingerprints of two severities are different. -/
theorem Fingerprint.firstSeverity_ne_second : ofMetric "r1" "P1" .empty ≠ ofMetric "r1" "P2" .empty := by
  decide +kernel

theorem Rule.findings_twoSeverities_between : twoSeverities.findings (.vector [.ofValue 80]) =
    [.unmatched (Fingerprint.ofMetric "r1" "P1" .empty) (Number.ofNat 80).text,
      (Check.above "P2" 70).finding (.ofValue 80) false] := (findings_of_pairwise rfl (by decide) _).trans rfl

theorem Rule.findings_twoSeverities_above : twoSeverities.findings (.vector [.ofValue 95]) =
    [(Check.above "P1" 90).finding (.ofValue 95) false] ++ [(Check.above "P2" 70).finding (.ofValue 95) true] :=
  (findings_of_pairwise rfl (by decide) _).trans rfl

/-- Two datasources that see a value above both bounds. -/
def Reading.aboveBoth : List Reading := [.ofValue "ds1" 15 95, .ofValue "ds2" 16 95]

/-- An engine that has seen a value between the bounds. -/
def Engine.betweenBounds : Engine :=
  (fresh (fun _ _ => false) .empty).run .standard [.dispatch .twoSeverities [.ofValue "ds1" 0 80]]

/-- Both tasks are done when each has made two look-ups and two stores. -/
theorem Engine.raced_aboveBoth : ∀ t ∈ (betweenBounds.raced (AnswerTask.ofReadings
    (Reading.aboveBoth.map fun r => (.twoSeverities, r))) [0, 1, 0, 1, 0, 1, 0, 1]).1, t.IsDone := by
  simp only [betweenBounds, Reading.aboveBoth, run, List.foldl, after, dispatch, gather, complete, Reading.ofValue,
    List.map, AnswerTask.ofReadings, AnswerTask.ofAnswer, List.filterMap, Except.toOption, Option.map,
    Rule.findings_twoSeverities_above, Rule.findings_twoSeverities_between]
  decide +kernel

/-- **What a record says about sending after a dispatch.** After any run, a dispatch in which no call fails leaves a
live record of everything that it reports, and the record says when it was last stamped in this dispatch, or what it
said before if it was not. Only an outranked match stamps it. In whatever order the datasources are worked off side by
side, what is outranked in no answer is not stamped, also when calls fail, and what is outranked wherever it is found is
stamped. -/
theorem sent_is_last_stamp (config : Config) (faults : Nat → Call → Bool) (infos : InfoCache) (works : List Work)
    (rule : Rule) (hcloud : rule.query.family ≠ .cloudMetrics) (readings : List Reading) :
    let e := (Engine.fresh faults infos).run config works
    ((∀ r ∈ readings, ¬Panicked r.reply) → ∃ report, (e.dispatch rule readings).1 = .ok report) ∧
      (∀ report e', e.dispatch rule readings = (.ok report, e') → e.NoneFailed e' →
        ∀ k, k ∈ report.fingerprints ∨ k ∈ report.suppressed →
          ∃ a, e'.cached rule k = some a ∧ a.status ≠ .recovered ∧
            a.lastSendTime = (rule.lastStamp k (e.liveRecord rule k).isSome readings).or (e.lastSent rule k)) ∧
      (∀ k live t, rule.lastStamp k live readings = some t →
        ∃ r ∈ readings, r.asked = t ∧ ∃ answer, r.reply = .ok answer ∧ k ∈ rule.outranked answer) ∧
      ∀ k order tasks e', e.raced (AnswerTask.ofReadings (readings.map fun r => (rule, r))) order = (tasks, e') →
        ((∀ r ∈ readings, ∀ answer, r.reply = .ok answer → k ∉ rule.outranked answer) →
          e'.lastSent rule k = e.lastSent rule k) ∧
        ((∃ r ∈ readings, ∃ answer, r.reply = .ok answer ∧ k ∈ rule.outranked answer) →
          (∀ r ∈ readings, ∀ answer, r.reply = .ok answer → ∀ f ∈ rule.findings answer, f.fingerprint? = some k →
            f.outranked? = some k) → (∀ t ∈ tasks, t.IsDone) → e.NoneFailed e' → e'.Stamped rule readings k) := by
  intro e
  have hc : e.Coherent := Engine.Coherent.run config works (Engine.coherent_fresh faults infos)
  refine ⟨(e.exists_report_dispatch_iff rule readings).mpr, ?_, fun k live t => Rule.asked_of_lastStamp, ?_⟩
  · intro report e' hd hnone k hk
    have hsame : e.healthy.dispatch rule readings = (.ok report, e'.healthy) := by
      have h := (Engine.local_dispatch rule readings).healthy_of_noneFailed (e := e) (by rwa [hd])
      rwa [hd] at h
    have hrecord := Engine.record_dispatch hcloud (Engine.healthy_healthy e) hc hsame hk
    exact hrecord
  · intro k order tasks e' hr
    refine ⟨fun hno => ?_, fun hsome hall hdone hnone => ?_⟩
    · have hsent := Engine.lastSent_race hc hno order
      rwa [← Engine.raced_snd, hr] at hsent
    · have hsame := (Engine.local_raced order _).healthy_of_noneFailed (e := e) (by rwa [hr])
      rw [hr] at hsame
      have hstamped := Engine.stamped_raced_readings (Engine.healthy_healthy e) hc hsome hall order (by rwa [hsame])
      rwa [hsame] at hstamped

/-- A value above both bounds stamps the record of the second severity, once for each datasource, and leaves that of the
first one unsent. -/
theorem sent_is_last_stamp_aboveBoth :
    let rule := Rule.twoSeverities
    let first := Fingerprint.ofMetric "r1" "P1" .empty
    let second := Fingerprint.ofMetric "r1" "P2" .empty
    let e := Engine.betweenBounds
    (∃ report e', e.dispatch rule Reading.aboveBoth = (.ok report, e') ∧ e.NoneFailed e' ∧ second ∈ report.suppressed ∧
      ∃ a, e'.cached rule second = some a ∧ a.lastSendTime = some (Instant.epoch.after (.ofSecs 16))) ∧
    ∃ tasks e', e.raced (AnswerTask.ofReadings (Reading.aboveBoth.map fun r => (rule, r))) [0, 1, 0, 1, 0, 1, 0, 1] =
        (tasks, e') ∧ (∀ t ∈ tasks, t.IsDone) ∧ e.NoneFailed e' ∧ e'.lastSent rule first = e.lastSent rule first ∧
      e'.Stamped rule Reading.aboveBoth second := by
  intro rule first second e
  have hh : e.Healthy := fun n c => by rw [show e.faults = _ from Engine.faults_run ..]; rfl
  have hne : first ≠ second := Fingerprint.firstSeverity_ne_second
  have hanswer : ∀ r ∈ Reading.aboveBoth, r.reply = .ok (.vector [.ofValue 95]) := by
    simp [Reading.aboveBoth, Reading.ofValue]
  have hp : ∀ r ∈ Reading.aboveBoth, ¬Panicked r.reply := by simp [Reading.aboveBoth, Reading.not_panicked_ofValue]
  have hcurrent : rule.current (.vector [.ofValue 95]) = [first] := by
    rw [Rule.current, Rule.findings_twoSeverities_above]
    rfl
  have houtranked : rule.outranked (.vector [.ofValue 95]) = [second] := by
    rw [Rule.outranked, Rule.findings_twoSeverities_above]
    rfl
  have hsome : ∃ r ∈ Reading.aboveBoth, ∃ answer, r.reply = .ok answer ∧ second ∈ rule.outranked answer :=
    ⟨_, List.mem_cons_self, _, rfl, houtranked ▸ List.mem_singleton_self second⟩
  obtain ⟨hreport, hdispatch, -, hrace⟩ := sent_is_last_stamp .standard (fun _ _ => false) .empty
    [.dispatch .twoSeverities [.ofValue "ds1" 0 80]] rule (by decide) Reading.aboveBoth
  constructor
  · obtain ⟨report, hr⟩ := hreport hp
    have hd : e.dispatch rule Reading.aboveBoth = (.ok report, (e.dispatch rule Reading.aboveBoth).2) := Prod.ext hr rfl
    obtain ⟨report', hr', hfound, hsuppressed⟩ := Engine.report_of_healthy rule second hp hh
    obtain rfl : report = report' := Except.ok.inj (hr.symm.trans hr')
    have hk : second ∈ report.suppressed := by
      refine hsuppressed.mpr ⟨hsome, fun h => ?_⟩
      obtain ⟨r, hr, answer, ha, hk⟩ := hfound.mp h
      rw [hanswer r hr] at ha
      cases ha
      exact hne (List.mem_singleton.mp (hcurrent ▸ hk)).symm
    obtain ⟨a, ha, -, hsent⟩ := hdispatch report _ hd (hh.noneFailed _) second (.inr hk)
    rw [show rule.lastStamp second _ Reading.aboveBoth = _ from Rule.lastStamp_append (r := .ofValue "ds2" 16 95)
      [.ofValue "ds1" 15 95] rfl Rule.findings_twoSeverities_above rfl] at hsent
    exact ⟨report, _, hd, hh.noneFailed _, hk, a, ha, hsent⟩
  · obtain ⟨hoff, -⟩ := hrace first [0, 1, 0, 1, 0, 1, 0, 1] _ _ (Prod.eta _).symm
    obtain ⟨-, hon⟩ := hrace second [0, 1, 0, 1, 0, 1, 0, 1] _ _ (Prod.eta _).symm
    refine ⟨_, _, (Prod.eta _).symm, Engine.raced_aboveBoth, hh.noneFailed _, hoff fun r hr answer ha hk => ?_,
      hon hsome (fun r hr answer ha f hf hk => ?_) Engine.raced_aboveBoth (hh.noneFailed _)⟩
    · rw [hanswer r hr] at ha
      cases ha
      exact hne (List.mem_singleton.mp (houtranked ▸ hk))
    · rw [hanswer r hr] at ha
      cases ha
      rw [Rule.findings_twoSeverities_above] at hf
      rcases List.mem_cons.mp hf with rfl | hf
      · exact absurd (Option.some.inj hk) hne
      · rw [List.mem_singleton.mp hf]
        rfl

/-- **A current alert can count as sent.** Two thresholds of one severity that a value meets have one fingerprint, which
is current, and the second match stamps its record; so does a second datasource for which the fingerprint is outranked.
A suppressed alert is not stamped if another threshold of its severity is not met. -/
theorem current_counts_as_sent :
    let k := Fingerprint.ofMetric "r1" "P2" .empty
    let e := Engine.fresh (fun _ _ => false) .empty
    let twice := e.dispatch .twoThresholds [.ofValue "ds1" 0 95]
    let both := e.dispatch .twoSeverities [.ofValue "ds1" 0 80, .ofValue "ds2" 0 95]
    let later := (e.dispatch .threeBounds [.ofValue "ds1" 0 72]).2.dispatch .threeBounds [.ofValue "ds1" 15 80]
    (∀ rule, e.lastSent rule k = none) ∧
      ((∃ report, twice.1 = .ok report ∧ k ∈ report.fingerprints) ∧ twice.2.lastSent .twoThresholds k = some .epoch) ∧
      ((∃ report, both.1 = .ok report ∧ k ∈ report.fingerprints) ∧ both.2.lastSent .twoSeverities k = some .epoch) ∧
      (∃ report, later.1 = .ok report ∧ k ∈ report.suppressed) ∧ later.2.lastSent .threeBounds k = none := by
  intro k e twice both later
  have hh : e.Healthy := fun _ _ => rfl
  have hc : e.Coherent := Engine.coherent_fresh _ _
  have hk : k ≠ Fingerprint.ofMetric "r1" "P1" .empty := Fingerprint.firstSeverity_ne_second.symm
  refine ⟨fun _ => rfl, ?twice, ?both, ?later⟩
  case twice =>
    have hfindings : Rule.twoThresholds.findings (.vector [.ofValue 95]) =
        [(Check.above "P2" 70).finding (.ofValue 95) false] ++ [(Check.above "P2" 90).finding (.ofValue 95) true] :=
      (Rule.findings_of_pairwise rfl (by decide) _).trans rfl
    refine Engine.current_and_sent [] hh hc (by simp [Reading.not_panicked_ofValue])
      ⟨_, List.mem_cons_self, _, rfl, ?_⟩ rfl hfindings rfl
    rw [Rule.current, hfindings]
    exact List.mem_cons_self
  case both =>
    refine Engine.current_and_sent [.ofValue "ds1" 0 80] hh hc (by simp [Reading.not_panicked_ofValue])
      ⟨_, List.mem_cons_self, _, rfl, ?_⟩ rfl Rule.findings_twoSeverities_above rfl
    rw [Rule.current, Rule.findings_twoSeverities_between]
    exact List.mem_cons_self
  case later =>
    have hfirst : Rule.threeBounds.findings (.vector [.ofValue 72]) =
        [.unmatched (Fingerprint.ofMetric "r1" "P1" .empty) (Number.ofNat 72).text,
          (Check.above "P2" 70).finding (.ofValue 72) false, .unmatched k (Number.ofNat 72).text] :=
      (Rule.findings_of_pairwise rfl (by decide) _).trans rfl
    have hsecond : Rule.threeBounds.findings (.vector [.ofValue 80]) =
        [(Check.above "P1" 75).finding (.ofValue 80) false, (Check.above "P2" 70).finding (.ofValue 80) true] ++
          [.unmatched k (Number.ofNat 80).text] := (Rule.findings_of_pairwise rfl (by decide) _).trans rfl
    have hp : ∀ x ∈ [Reading.ofValue "ds1" 0 72], ¬Panicked x.reply := by simp [Reading.not_panicked_ofValue]
    obtain ⟨hh₁, hc₁⟩ := Engine.dispatch_keeps (P := fun e => e.Healthy ∧ e.Coherent)
      (fun hq h => ⟨h.1.quiet hq, h.2.quiet hq⟩) (fun a h => ⟨h.1, h.2.stored a⟩) .threeBounds
      [.ofValue "ds1" 0 72] ⟨hh, hc⟩
    have hon : k ∈ Rule.threeBounds.current (.vector [.ofValue 72]) := by
      rw [Rule.current, hfirst]
      exact List.mem_cons_self
    have hlive := Engine.live_dispatch (by decide) hp hh hc ⟨_, List.mem_cons_self, _, rfl, .inl hon⟩
    have hunsent := Engine.sent_dispatch .threeBounds k hp hh hc
    rw [Rule.lastStamp_eq_none fun x hx answer ha => ?_] at hunsent
    · have hoff : k ∉ Rule.threeBounds.current (.vector [.ofValue 80]) := by
        rw [Rule.current, hsecond]
        exact fun h => hk (List.mem_singleton.mp h)
      have hout : k ∈ Rule.threeBounds.outranked (.vector [.ofValue 80]) := by
        rw [Rule.outranked, hsecond]
        exact List.mem_cons_self
      obtain ⟨hreport, hsent⟩ := Engine.suppressed_and_unsent hh₁ hc₁ hlive (r := .ofValue "ds1" 15 80) rfl hout hoff
        hsecond (by simp [Finding.leaves]) (Option.some_ne_none k).symm
      exact ⟨hreport, hsent.trans hunsent⟩
    · rw [List.mem_singleton.mp hx] at ha
      cases ha
      rw [Rule.outranked, hfirst]
      exact List.not_mem_nil

end Alerting
