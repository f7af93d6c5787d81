import Alerting.Proofs.Dispatch.Labels
import Alerting.Proofs.Dispatch.Summary
import Alerting.Proofs.Rule.Urgency
import Mathlib.Data.List.Forall2

/-!
# One severity for each series

A metrics rule checks every series against the thresholds of its severities, the most urgent first (`Rule.checks`). Of
the checks that the series meets (`Rule.hits`) the first one makes its fingerprint current, and the others make theirs
suppressed (`Metrics.reports_judge`). Every check that is met gives one event, and every other one a refreshed copy of
the live record of its fingerprint, if there is one (`Check.Gives`, `Metrics.gives_judge`).

An expression that is no threshold is no check. It is noted, and the outcome is that of the rule without it
(`Rule.workOff_withoutMalformed`).
-/

namespace Alerting

/-! ## Checks -/

/-- A severity with the threshold that calls for it. -/
structure Check where
  severity : Severity
  threshold : Threshold
  deriving DecidableEq

/-- The check of a severity rule, if its expression is a threshold. -/
def SeverityRule.check? (s : SeverityRule) : Option Check :=
  (Threshold.ofExpr s.expr).toOption.map fun threshold => ⟨s.severity, threshold⟩

theorem SeverityRule.check?_of_error {s : SeverityRule} {error : EngineError}
    (h : Threshold.ofExpr s.expr = .error error) : s.check? = none := by rw [check?, h]; rfl

theorem SeverityRule.check?_of_ok {s : SeverityRule} {threshold : Threshold}
    (h : Threshold.ofExpr s.expr = .ok threshold) : s.check? = some ⟨s.severity, threshold⟩ := by rw [check?, h]; rfl

namespace Check

/-- The fingerprint of a check of a series. -/
def fingerprint (c : Check) (rule : String) (series : MetricSeries) : String :=
  Fingerprint.ofMetric rule c.severity.name series.labels

/-- Whether a series meets a check. -/
def isMet (c : Check) (series : MetricSeries) : Bool := c.threshold.holds series.value

end Check

namespace Rule

/-- The checks of a rule, the most urgent first. -/
def checks (rule : Rule) : List Check := rule.orderedSeverityRules.filterMap SeverityRule.check?

/-- The checks that a series meets. -/
def hits (rule : Rule) (series : MetricSeries) : List Check := rule.checks.filter (·.isMet series)

/-- The rule without the expressions that are no thresholds. -/
def withoutMalformed (rule : Rule) : Rule :=
  { rule with severityRules := rule.severityRules.filter (·.check?.isSome) }

end Rule

/-! ## Judging a series -/

namespace Metrics

/-- The observation of a check that is met. -/
def observation (rule query : String) (series : MetricSeries) (outranked : Bool) (c : Check) : Observation where
  fingerprint := c.fingerprint rule series
  severity := c.severity
  labels := series.labels.insert valueLabel series.value.text
  searchQuery := query ++ " " ++ c.threshold.text
  suppressed := outranked
  messages := []

section Judge

variable {rule query : String} {series : MetricSeries} {s : SeverityRule} {rules : List SeverityRule}

theorem judge_of_error (outranked : Bool) {error : EngineError} (h : Threshold.ofExpr s.expr = .error error) :
    judge rule query series outranked (s :: rules) =
      .malformed s.severity error :: judge rule query series outranked rules := by
  rw [judge, h]

theorem judge_of_met (outranked : Bool) {threshold : Threshold} (h : Threshold.ofExpr s.expr = .ok threshold)
    (hm : Check.isMet ⟨s.severity, threshold⟩ series = true) :
    judge rule query series outranked (s :: rules) =
      .matched (observation rule query series outranked ⟨s.severity, threshold⟩) ::
        judge rule query series true rules := by
  rw [judge, h]
  exact if_pos hm

theorem judge_of_unmet (outranked : Bool) {threshold : Threshold} (h : Threshold.ofExpr s.expr = .ok threshold)
    (hm : Check.isMet ⟨s.severity, threshold⟩ series = false) :
    judge rule query series outranked (s :: rules) =
      .unmatched (Check.fingerprint ⟨s.severity, threshold⟩ rule series) series.value.text ::
        judge rule query series outranked rules := by
  rw [judge, h]
  exact if_neg (Bool.eq_false_iff.mp hm)

end Judge

variable (rule query : String) (series : MetricSeries)

/-- **The first check that a series meets makes its fingerprint current**, unless a more urgent one was met before,
**and the others that it meets make theirs suppressed.** -/
theorem reports_judge (rules : List SeverityRule) (outranked : Bool) :
    let hits := (rules.filterMap SeverityRule.check?).filter (·.isMet series)
    (judge rule query series outranked rules).filterMap Finding.current? =
        (if outranked then [] else (hits.head?.map (·.fingerprint rule series)).toList) ∧
      (judge rule query series outranked rules).filterMap Finding.outranked? =
        (if outranked then hits else hits.tail).map (·.fingerprint rule series) := by
  induction rules generalizing outranked with
  | nil => cases outranked <;> exact ⟨rfl, rfl⟩
  | cons s rules ih =>
    cases ht : Threshold.ofExpr s.expr with
    | error error =>
      rw [judge_of_error outranked ht, List.filterMap_cons_none (SeverityRule.check?_of_error ht)]
      exact ih outranked
    | ok threshold =>
      rw [List.filterMap_cons_some (SeverityRule.check?_of_ok ht), List.filter_cons]
      cases hm : Check.isMet ⟨s.severity, threshold⟩ series with
      | true =>
        obtain ⟨hcurrent, houtranked⟩ := ih true
        rw [judge_of_met outranked ht hm, List.filterMap_cons, List.filterMap_cons, hcurrent, houtranked]
        cases outranked <;> exact ⟨rfl, rfl⟩
      | false =>
        rw [judge_of_unmet outranked ht hm]
        exact ih outranked

end Metrics

namespace Rule

variable {rule : Rule} {query : String}

theorem findings_vector (hq : rule.query = .metrics query) (series : List MetricSeries) :
    rule.findings (.vector series) = Metrics.findings rule query series := by
  simp only [findings, hq]

/-- What a rule finds current is the fingerprint of the first check that each series meets. -/
theorem current_vector (hq : rule.query = .metrics query) (series : List MetricSeries) :
    rule.current (.vector series) =
      series.filterMap fun s => (rule.hits s).head?.map (·.fingerprint rule.id s) := by
  rw [current, findings_vector hq, Metrics.findings, List.filterMap_flatMap, List.filterMap_eq_flatMap_toList]
  exact congrArg (series.flatMap ·) (funext fun s => (Metrics.reports_judge ..).1)

/-- What a rule finds outranked are those of the other checks. -/
theorem outranked_vector (hq : rule.query = .metrics query) (series : List MetricSeries) :
    rule.outranked (.vector series) =
      series.flatMap fun s => (rule.hits s).tail.map (·.fingerprint rule.id s) := by
  rw [outranked, findings_vector hq, Metrics.findings, List.filterMap_flatMap]
  exact congrArg (series.flatMap ·) (funext fun s => (Metrics.reports_judge ..).2)

end Rule

/-! ## Events -/

/-- A record of a check that a series meets: it goes on with the live record of its fingerprint, or it is the first of a
generation. -/
structure Check.Records (c : Check) (rule : Rule) (query : String) (now : Instant) (series : MetricSeries)
    (cached : Option Event) (event : Event) : Prop where
  liesAt : event.LiesAt (eventsKey rule.tenantId rule.faultCenterId) (c.fingerprint rule.id series)
  owner : event.owner = rule.owner
  severity : event.severity = c.severity
  value : event.value? = some series.value.text
  searchQuery : event.searchQuery = query ++ " " ++ c.threshold.text
  lastEvalTime : event.lastEvalTime = now
  generation :
    (∃ old, cached = some old ∧ old.status.isTerminal = false ∧ event.id = old.id ∧
      event.firstTriggerTime = old.firstTriggerTime ∧
      event.status = if old.isDue rule now then .alerting else old.status) ∨
    ((∀ old, cached = some old → old.status.isTerminal = true) ∧ event.firstTriggerTime = now ∧
      event.status = .preAlert)

/-- What a check of a series gives: a record if it is met, and else a copy of the live record with the new value, time
and annotations. -/
def Check.Gives (c : Check) (rule : Rule) (query : String) (now : Instant) (series : MetricSeries)
    (cached : Option Event) (events : List Event) : Prop :=
  if c.isMet series then ∃ event, events = [event] ∧ c.Records rule query now series cached event
  else events = ((cached.filter fun old => !old.status.isTerminal).map fun old =>
    { old with
      labels := old.labels.insert valueLabel series.value.text
      lastEvalTime := now
      annotations := Template.render rule.annotations (old.labels.insert valueLabel series.value.text) }).toList

/-- A check that is met gives one event. -/
theorem Check.Gives.length_of_isMet {c : Check} {rule : Rule} {query : String} {now : Instant} {series : MetricSeries}
    {cached : Option Event} {events : List Event} (h : c.Gives rule query now series cached events)
    (hm : c.isMet series = true) : events.length = 1 := by
  rw [Gives, if_pos hm] at h
  obtain ⟨event, rfl, -⟩ := h
  rfl

namespace Metrics

variable (rule : Rule) (query datasource : String) (now : Instant) (cached : String → Option Event)

omit cached in
/-- The event of an observation is a record of its check. -/
theorem records_event (c : Check) (series : MetricSeries) (outranked : Bool) (id : String) (record : Option Event) :
    c.Records rule query now series record
      ((observation rule.id query series outranked c).event rule datasource id now record) := by
  let o := observation rule.id query series outranked c
  obtain ⟨hlies, htime, howner, hgeneration⟩ := o.event_spec rule datasource id now record
  have hfields : (o.event rule datasource id now record).severity = o.severity ∧
      (o.event rule datasource id now record).searchQuery = o.searchQuery := by
    rcases Event.live_or_new record with ⟨old, rfl, hlive⟩ | hnew
    · rw [o.event_of_live rule datasource id now hlive]
      exact ⟨rfl, rfl⟩
    · rw [o.event_of_new rule datasource id now hnew]
      exact ⟨rfl, rfl⟩
  have hvalue := Observation.value?_event rule datasource id now (o := o) (Table.get?_insert_self ..) record
  refine ⟨hlies, howner, hfields.1, hvalue, hfields.2, htime, ?_⟩
  rcases hgeneration with ⟨old, hold, hlive, hid, hfirst, hs⟩ | ⟨hnew, -, hfirst, hs⟩
  · exact .inl ⟨old, hold, hlive, hid, hfirst, hs⟩
  · exact .inr ⟨hnew, hfirst, hs⟩

/-- **The events of a series are those that its checks give, one check after the other.** -/
theorem gives_judge (series : MetricSeries) (rules : List SeverityRule) (outranked : Bool) (n : Nat) :
    ∃ parts, eventsOf cached rule datasource now n (judge rule.id query series outranked rules) = parts.flatten ∧
      List.Forall₂ (fun c events => c.Gives rule query now series (cached (c.fingerprint rule.id series)) events)
        (rules.filterMap SeverityRule.check?) parts := by
  induction rules generalizing outranked n with
  | nil => exact ⟨[], rfl, .nil⟩
  | cons s rules ih =>
    cases ht : Threshold.ofExpr s.expr with
    | error error =>
      rw [judge_of_error outranked ht, List.filterMap_cons_none (SeverityRule.check?_of_error ht)]
      exact ih outranked n
    | ok threshold =>
      rw [List.filterMap_cons_some (SeverityRule.check?_of_ok ht)]
      cases hm : Check.isMet ⟨s.severity, threshold⟩ series with
      | true =>
        obtain ⟨parts, hparts, hall⟩ := ih true (n + 1)
        let o := observation rule.id query series outranked ⟨s.severity, threshold⟩
        refine ⟨[o.event rule datasource (Engine.mintedId n) now (cached o.fingerprint)] :: parts, ?_, .cons ?_ hall⟩
        · rw [judge_of_met outranked ht hm, eventsOf, List.flatten_cons, ← hparts]
          rfl
        · rw [Check.Gives, if_pos hm]
          exact ⟨_, rfl, records_event rule query datasource now ⟨s.severity, threshold⟩ series outranked
            (Engine.mintedId n) _⟩
      | false =>
        obtain ⟨parts, hparts, hall⟩ := ih outranked n
        refine ⟨Finding.events cached rule datasource now n (.unmatched
          (Check.fingerprint ⟨s.severity, threshold⟩ rule.id series) series.value.text) :: parts, ?_, .cons ?_ hall⟩
        · rw [judge_of_unmet outranked ht hm, eventsOf, List.flatten_cons, ← hparts]
          rfl
        · rw [Check.Gives, if_neg (Bool.eq_false_iff.mp hm)]
          rfl

/-- The events of an answer are those that the checks of its series give. -/
theorem gives_findings (series : List MetricSeries) (n : Nat) :
    ∃ parts, eventsOf cached rule datasource now n (findings rule query series) = parts.flatten ∧
      List.Forall₂ (fun (x : MetricSeries × Check) events =>
          x.2.Gives rule query now x.1 (cached (x.2.fingerprint rule.id x.1)) events)
        (series.flatMap fun s => rule.checks.map fun c => (s, c)) parts := by
  induction series generalizing n with
  | nil => exact ⟨[], rfl, .nil⟩
  | cons s series ih =>
    obtain ⟨parts, hparts, hall⟩ := gives_judge rule query datasource now cached s rule.orderedSeverityRules false n
    obtain ⟨parts', hparts', hall'⟩ := ih (n + (judge rule.id query s false rule.orderedSeverityRules).countP
      Finding.isMatch)
    refine ⟨parts ++ parts', ?_, ?_⟩
    · rw [List.flatten_append, ← hparts, ← hparts', findings, List.flatMap_cons, eventsOf_append]
      rfl
    · rw [List.flatMap_cons]
      exact List.rel_append (List.forall₂_map_left_iff.mpr hall) hall'

end Metrics

/-! ## Malformed expressions -/

/-- Whether a finding is a malformed expression. -/
def Finding.isMalformed : Finding → Bool
  | malformed .. => true
  | _ => false

namespace Rule

variable (rule : Rule)

/-- A rule without its malformed expressions has the same checks. -/
theorem orderedSeverityRules_withoutMalformed :
    rule.withoutMalformed.orderedSeverityRules = rule.orderedSeverityRules.filter (·.check?.isSome) :=
  (SeverityRule.filter_mergeSort rule.severityRules (·.check?.isSome)).symm

/-- Malformed expressions leave the findings on the others as they are. -/
theorem judge_filter (id query : String) (series : MetricSeries) (rules : List SeverityRule) (outranked : Bool) :
    Metrics.judge id query series outranked (rules.filter (·.check?.isSome)) =
      (Metrics.judge id query series outranked rules).filter (!·.isMalformed) := by
  induction rules generalizing outranked with
  | nil => rfl
  | cons s rules ih =>
    cases ht : Threshold.ofExpr s.expr with
    | error error =>
      rw [List.filter_cons_of_neg (by simp [SeverityRule.check?_of_error ht]), Metrics.judge_of_error outranked ht, ih]
      rfl
    | ok threshold =>
      rw [List.filter_cons_of_pos (by simp [SeverityRule.check?_of_ok ht])]
      cases hm : Check.isMet ⟨s.severity, threshold⟩ series with
      | true =>
        rw [Metrics.judge_of_met outranked ht hm, Metrics.judge_of_met outranked ht hm, ih]
        rfl
      | false =>
        rw [Metrics.judge_of_unmet outranked ht hm, Metrics.judge_of_unmet outranked ht hm, ih]
        rfl

theorem findings_withoutMalformed {query : String} (hq : rule.query = .metrics query) (series : List MetricSeries) :
    rule.withoutMalformed.findings (.vector series) =
      (rule.findings (.vector series)).filter (!·.isMalformed) := by
  have hq' : rule.withoutMalformed.query = .metrics query := hq
  rw [findings_vector hq, findings_vector hq', Metrics.findings, Metrics.findings, List.filter_flatMap,
    orderedSeverityRules_withoutMalformed]
  exact congrArg (series.flatMap ·) (funext fun s => judge_filter ..)

variable {rule}

/-- Malformed expressions are noted and nothing else, whichever calls fail. -/
theorem workOff_filter (datasource : String) (now : Instant) (fs : List Finding) (e : Engine) (out : Outcome)
    (notices : List (Nat × Notice)) :
    (Engine.workOff rule.withoutMalformed datasource now { e with notices := notices } out
        (fs.filter (!·.isMalformed))).1 = (Engine.workOff rule datasource now e out fs).1 := by
  induction fs generalizing e out notices with
  | nil => rfl
  | cons f fs ih =>
    cases f with
    | malformed severity error => exact ih (e.note (.malformedExpression rule.id severity error)) out notices
    | configured fingerprint => exact ih e _ notices
    | unmatched fingerprint value =>
      rw [List.filter_cons_of_pos rfl, Engine.workOff, Engine.workOff, Engine.get, Engine.get, Engine.perform,
        Engine.perform]
      cases hf : e.fails (.get fingerprint) with
      | true =>
        rw [show ({ e with notices := notices } : Engine).fails (.get fingerprint) = true from hf]
        rfl
      | false =>
        rw [show ({ e with notices := notices } : Engine).fails (.get fingerprint) = false from hf]
        exact ih e.counted _ notices
    | matched o =>
      rw [List.filter_cons_of_pos rfl, Engine.workOff, Engine.workOff, Engine.get, Engine.get, Engine.perform,
        Engine.perform]
      cases hf : e.fails (.get o.fingerprint) with
      | true =>
        rw [show ({ e with notices := notices } : Engine).fails (.get o.fingerprint) = true from hf]
        rfl
      | false =>
        rw [show ({ e with notices := notices } : Engine).fails (.get o.fingerprint) = false from hf]
        exact ih e.counted.mint.2 _ notices

/-- **Malformed expressions do not change the outcome of the others.** -/
theorem workOff_withoutMalformed {query : String} (hq : rule.query = .metrics query) (series : List MetricSeries)
    (datasource : String) (now : Instant) (e : Engine) :
    (Engine.workOff rule.withoutMalformed datasource now e .empty
        (rule.withoutMalformed.findings (.vector series))).1 =
      (Engine.workOff rule datasource now e .empty (rule.findings (.vector series))).1 := by
  rw [findings_withoutMalformed rule hq]
  exact workOff_filter datasource now _ e .empty e.notices

end Rule

/-! ## The outcome -/

/-- **A metrics rule picks one severity for each series.** When the look-ups of stored records succeed, the outcome of
an answer has the most urgent check that each series meets as current and the others as suppressed, with one record for
every check that is met and a refreshed copy of the live record for every other; malformed expressions change
nothing. -/
theorem one_severity_per_series (rule : Rule) (query : String) (hq : rule.query = .metrics query)
    (series : List MetricSeries) (datasource : String) (now : Instant) (e : Engine)
    (hget : ∀ n k, e.calls ≤ n →
      n < (Engine.workOff rule datasource now e .empty (rule.findings (.vector series))).2.calls →
      e.faults n (.get k) = false) :
    (∃ out e', Engine.workOff rule datasource now e .empty (rule.findings (.vector series)) = (.ok out, e') ∧
      out.fingerprints = (series.filterMap fun s => (rule.hits s).head?.map (·.fingerprint rule.id s)) ∧
      out.suppressed = (series.flatMap fun s => (rule.hits s).tail.map (·.fingerprint rule.id s)) ∧
      ∃ parts, out.events = parts.flatten ∧
        List.Forall₂ (fun (x : MetricSeries × Check) events =>
            x.2.Gives rule query now x.1 (e.cached rule (x.2.fingerprint rule.id x.1)) events)
          (series.flatMap fun s => rule.checks.map fun c => (s, c)) parts) ∧
    (rule.orderedSeverityRules.Perm rule.severityRules ∧
      (rule.orderedSeverityRules.Pairwise fun a b => a.severity.le b.severity = true) ∧
      ∀ s, SeverityRule.ofSeverity rule.orderedSeverityRules s = SeverityRule.ofSeverity rule.severityRules s) ∧
    (Engine.workOff rule.withoutMalformed datasource now e .empty
        (rule.withoutMalformed.findings (.vector series))).1 =
      (Engine.workOff rule datasource now e .empty (rule.findings (.vector series))).1 := by
  refine ⟨?outcome, ⟨rule.perm_orderedSeverityRules, rule.pairwise_orderedSeverityRules,
    rule.ofSeverity_orderedSeverityRules⟩, Rule.workOff_withoutMalformed hq series datasource now e⟩
  case outcome =>
    have hfails : e.FailsAs (fun e => Engine.workOff rule datasource now e .empty (rule.findings (.vector series)))
        Call.isGet fun _ => false :=
      .of_faults (Engine.local_workOff rule datasource now .empty (rule.findings (.vector series)))
        fun n c hle hlt hc => by
          cases c with
          | get k => exact hget n k hle hlt
          | _ => cases hc
    obtain ⟨out, e', hw, hcurrent, houtranked⟩ := Engine.workOff_of_getsSucceed rule datasource now
      (Engine.getsSucceed_withFate e) (rule.findings (.vector series)) .empty
    have hresult := (congrArg Prod.fst hw).symm.trans hfails.fst
    have hpair : Engine.workOff rule datasource now e .empty (rule.findings (.vector series)) =
        (.ok out, (Engine.workOff rule datasource now e .empty (rule.findings (.vector series))).2) :=
      Prod.ext hresult.symm rfl
    have hevents := (Engine.workOff_spec _ hpair).1
    rw [Rule.findings_vector hq] at hevents
    obtain ⟨parts, hparts, hall⟩ := Metrics.gives_findings rule query datasource now (e.cached rule) series e.minted
    exact ⟨out, _, hpair, hcurrent.trans (Rule.current_vector hq series),
      houtranked.trans (Rule.outranked_vector hq series), parts, hevents.trans hparts, hall⟩

/-- A metrics rule with three severities, one of them with a malformed expression. -/
def Rule.threeSeverities : Rule :=
  { twoThresholds with severityRules := [⟨⟨"P0"⟩, "> 90"⟩, ⟨⟨"P1"⟩, "high"⟩, ⟨⟨"P2"⟩, "> 70"⟩] }

/-- A value above two thresholds is current for the more urgent severity, suppressed for the other, and gives an event
for each. -/
theorem one_severity_per_series_above :
    let rule := Rule.threeSeverities
    let series : MetricSeries := ⟨.empty, .ofNat 95, .epoch⟩
    ∃ out e', Engine.workOff rule "ds1" .epoch .active .empty (rule.findings (.vector [series])) = (.ok out, e') ∧
      out.fingerprints = [Fingerprint.ofMetric "r1" "P0" .empty] ∧
      out.suppressed = [Fingerprint.ofMetric "r1" "P2" .empty] ∧ out.events.length = 2 := by
  intro rule series
  obtain ⟨⟨out, e', hw, hcurrent, hsuppressed, parts, hevents, hall⟩, -, -⟩ :=
    one_severity_per_series rule "load" rfl [series] "ds1" .epoch .active fun n k _ _ => Engine.healthy_active n _
  have hchecks : rule.checks = [⟨⟨"P0"⟩, .greater, .ofNat 90⟩, ⟨⟨"P2"⟩, .greater, .ofNat 70⟩] := by
    rw [Rule.checks, Rule.orderedSeverityRules_of_pairwise (by decide)]
    decide +kernel
  have hmet : ∀ c ∈ rule.checks, c.isMet series = true := by
    rw [hchecks]
    decide +kernel
  have hhits : rule.hits series = rule.checks := List.filter_eq_self.mpr hmet
  simp only [List.filterMap_cons, List.flatMap_cons, List.flatMap_nil, hhits, hchecks] at hcurrent hsuppressed
  refine ⟨out, e', hw, hcurrent, hsuppressed, ?_⟩
  rw [List.flatMap_cons, List.flatMap_nil, List.append_nil, hchecks] at hall
  cases hall with
  | @cons _ first _ _ hfirst hall =>
    cases hall with
    | @cons _ second _ _ hsecond hall =>
      cases hall
      have h₁ : first.length = 1 := hfirst.length_of_isMet (hmet _ (by simp [hchecks]))
      have h₂ : second.length = 1 := hsecond.length_of_isMet (hmet _ (by simp [hchecks]))
      simp [hevents, h₁, h₂]

end Alerting
