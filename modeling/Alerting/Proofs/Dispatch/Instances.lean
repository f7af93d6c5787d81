import Alerting.Proofs.Dispatch.Groups
import Alerting.Proofs.Dispatch.Metrics

/-!
# The instances that match

A rule finds some alert instances in an answer. `Rule.instances` says which, family by family: with their fingerprint,
severity and value, and with the first value that the backend itself has as a label of them. These are the matches among
the findings of the rule, in their order (`Rule.seen_findings`).

The label of the first value of a new generation is then the one that the backend has, or else that of the rule, and the
observed value only if there is neither (`Instance.firstLabel`).
-/

namespace Alerting

/-- An alert instance that matches. -/
structure Instance where
  fingerprint : String
  severity : Severity
  /-- The text of the observed value. -/
  value : String
  /-- The label of the first value, if the backend has one. -/
  reported : Option String
  deriving DecidableEq

/-- The label of a first value that is there before the instance has ever matched. -/
def Instance.given (i : Instance) (rule : Rule) : Option String :=
  i.reported.or (rule.externalLabels.get? firstValueLabel)

/-- The label of the first value in a new generation. -/
def Instance.firstLabel (i : Instance) (rule : Rule) : String := (i.given rule).getD i.value

/-- The instance of a match. -/
def Observation.seen (o : Observation) : Instance :=
  ⟨o.fingerprint, o.severity, (o.labels.get? valueLabel).getD "", o.labels.get? firstValueLabel⟩

def Finding.seen? : Finding → Option Instance
  | matched o => some o.seen
  | _ => none

theorem Observation.seen_of_labels {o : Observation} {value : String} {reported : Option String}
    (h : o.labels.get? valueLabel = some value ∧ o.labels.get? firstValueLabel = reported) :
    o.seen = ⟨o.fingerprint, o.severity, value, reported⟩ := by
  rw [seen, h.1, h.2, Option.getD_some]

/-- Labels that are listed with a value and without a first value. -/
theorem Table.get?_ofList_value {es : List (String × String)} {v : String} (keys : List String)
    (hkeys : es.map (·.1) = keys) (hn : keys.Nodup ∧ firstValueLabel ∉ keys) (hv : (valueLabel, v) ∈ es) :
    (ofList es).get? valueLabel = some v ∧ (ofList es).get? firstValueLabel = none := by
  subst hkeys
  refine ⟨(get?_ofList hn.1 _ _).mpr hv, Option.eq_none_iff_forall_ne_some.mpr fun w hw => hn.2 ?_⟩
  exact List.mem_map.mpr ⟨_, (get?_ofList hn.1 _ _).mp hw, rfl⟩

/-! ## Family by family -/

namespace Metrics

/-- The checks that a series meets. -/
def instances (rule : Rule) (series : List MetricSeries) : List Instance :=
  series.flatMap fun s => (rule.hits s).map fun c =>
    ⟨c.fingerprint rule.id s, c.severity, s.value.text, s.labels.get? firstValueLabel⟩

theorem seen_judge (rule query : String) (series : MetricSeries) (rules : List SeverityRule) (outranked : Bool) :
    (judge rule query series outranked rules).filterMap Finding.seen? =
      ((rules.filterMap SeverityRule.check?).filter (·.isMet series)).map fun c =>
        ⟨c.fingerprint rule series, c.severity, series.value.text, series.labels.get? firstValueLabel⟩ := by
  induction rules generalizing outranked with
  | nil => rfl
  | cons s rules ih =>
    cases ht : Threshold.ofExpr s.expr with
    | error error =>
      rw [judge_of_error outranked ht, List.filterMap_cons_none (SeverityRule.check?_of_error ht)]
      exact ih outranked
    | ok threshold =>
      rw [List.filterMap_cons_some (SeverityRule.check?_of_ok ht), List.filter_cons]
      cases hm : Check.isMet ⟨s.severity, threshold⟩ series with
      | true =>
        have hseen : (observation rule query series outranked ⟨s.severity, threshold⟩).seen =
            ⟨Check.fingerprint ⟨s.severity, threshold⟩ rule series, s.severity, series.value.text,
              series.labels.get? firstValueLabel⟩ :=
          Observation.seen_of_labels ⟨Table.get?_insert_self .., (Table.get?_insert ..).trans (if_neg (by decide))⟩
        rw [judge_of_met outranked ht hm, List.filterMap_cons]
        simp only [Finding.seen?, hseen, ih true, if_true, List.map_cons]
      | false =>
        rw [judge_of_unmet outranked ht hm]
        exact ih outranked

theorem seen_findings (rule : Rule) (query : String) (series : List MetricSeries) :
    (findings rule query series).filterMap Finding.seen? = instances rule series := by
  rw [findings, List.filterMap_flatMap]
  exact congrArg (fun f => series.flatMap f) (funext fun s => seen_judge rule.id query s _ false)

end Metrics

namespace Logs

/-- The rule's only instance, if the count compares as wanted. -/
def instances (rule : Rule) (operator : Comparison) (expected : Number) (severity : Severity) (count : Nat) :
    List Instance :=
  if operator.holds (Number.ofNat count) expected then
    [⟨Fingerprint.ofRule rule.id, severity, Nat.repr count, none⟩]
  else []

theorem seen_findings (rule : Rule) (query : String) (window : Nat) (unit : TimeUnit) (operator : Comparison)
    (expected : Number) (severity : Severity) (count : Nat) :
    (findings rule query window unit operator expected severity count).filterMap Finding.seen? =
      instances rule operator expected severity count := by
  rw [findings, instances]
  split <;> rfl

end Logs

namespace Traces

/-- Every trace. -/
def instances (rule : Rule) (severity : Severity) (traces : List TraceRecord) : List Instance :=
  traces.map fun t => ⟨Fingerprint.ofTrace rule.id t.service t.traceId, severity, Nat.repr t.durationMs, none⟩

theorem get?_labels (t : TraceRecord) :
    (labels t).get? valueLabel = some (Nat.repr t.durationMs) ∧ (labels t).get? firstValueLabel = none := by
  rw [labels]
  split
  · exact Table.get?_ofList_value ["trace_id", "service", "operation", "duration_ms", valueLabel] rfl
      (by decide) (by simp)
  · exact Table.get?_ofList_value ["trace_id", "service", "operation", "duration_ms", valueLabel, "message"]
      rfl (by decide) (by simp)

theorem seen_findings (rule : Rule) (service query : String) (windowSecs : Nat) (severity : Severity)
    (traces : List TraceRecord) : (findings rule service query windowSecs severity traces).filterMap Finding.seen? =
      instances rule severity traces := by
  rw [findings, instances, List.filterMap_map, ← List.filterMap_eq_map]
  refine congrArg (fun f => traces.filterMap f) (funext fun t => congrArg some ?_)
  exact Observation.seen_of_labels (get?_labels t)

end Traces

namespace Cloud

/-- The endpoints whose statistic compares as wanted. -/
def instances (rule : Rule) (metric : String) (endpoints : List String) (operator : Comparison) (threshold : Number)
    (severity : Severity) (points : List CloudDatapoint) : List Instance :=
  endpoints.filterMap fun endpoint =>
    ((latest points endpoint).filter fun value => operator.holds value threshold).map fun value =>
      ⟨Fingerprint.ofCloud rule.id metric endpoint, severity, value.text, none⟩

theorem seen_findings (rule : Rule) (ns metric statistic : String) (periodSecs : Nat) (endpoints : List String)
    (operator : Comparison) (threshold : Number) (severity : Severity) (points : List CloudDatapoint) :
    (findings rule ns metric statistic periodSecs endpoints operator threshold severity points).filterMap
      Finding.seen? = instances rule metric endpoints operator threshold severity points := by
  rw [findings, instances, List.filterMap_map]
  refine congrArg (fun f => endpoints.filterMap f) (funext fun endpoint => ?_)
  rw [Function.comp_apply]
  cases (latest points endpoint).filter fun value => operator.holds value threshold with
  | none => rfl
  | some value =>
    refine congrArg some (Observation.seen_of_labels ?_)
    exact Table.get?_ofList_value ["namespace", "metric", "endpoint", valueLabel] rfl (by decide) (by simp)

end Cloud

namespace Kube

/-- The groups that are reported. -/
def instances (rule : Rule) (reasons : List String) (threshold : Nat) (severity : Severity) (events : List KubeEvent) :
    List Instance :=
  (reported reasons threshold events).map fun g =>
    ⟨Fingerprint.ofKube rule.id g.namespace g.reason g.object, severity, Nat.repr g.size, none⟩

theorem seen_findings (rule : Rule) (ns : String) (reasons : List String) (threshold windowSecs : Nat)
    (severity : Severity) (events : List KubeEvent) :
    (findings rule ns reasons threshold windowSecs severity events).filterMap Finding.seen? =
      instances rule reasons threshold severity events := by
  rw [findings, instances, reported, List.filterMap_filterMap, List.map_filterMap]
  refine congrArg (fun f => (groupList (wanted reasons events)).filterMap f) (funext fun g => ?_)
  rcases judge_cases rule ns threshold windowSecs severity g.1 g.2.1 g.2.2 with
    ⟨hj, hg⟩ | ⟨o, first, size, hj, hg, hf, hs, hl, -⟩
  · rw [hj, hg]
    rfl
  · rw [hj, hg]
    have hlabels : o.labels.get? valueLabel = some (Nat.repr size) ∧ o.labels.get? firstValueLabel = none := by
      rw [hl]
      exact Table.get?_ofList_value ["namespace", "kind", "object_name", "reason", valueLabel] rfl
        (by decide) (by simp)
    exact congrArg some ((Observation.seen_of_labels hlabels).trans (by rw [hf, hs]))

end Kube

/-! ## All families -/

/-- The instances that match in an answer. -/
def Rule.instances (rule : Rule) (answer : Answer) : List Instance :=
  match rule.query, answer with
  | .metrics _, .vector series => Metrics.instances rule series
  | .logs _ _ _ operator expected severity, .count n => Logs.instances rule operator expected severity n
  | .traces _ _ _ severity, .traces traces => Traces.instances rule severity traces
  | .cloudMetrics _ metric _ _ endpoints operator threshold severity, .statistics points =>
    Cloud.instances rule metric endpoints operator threshold severity points
  | .kubernetesEvents _ reasons threshold _ severity, .warningEvents events =>
    Kube.instances rule reasons threshold severity events
  | _, _ => []

/-- **The matches of a rule in an answer are the instances that match, in their order.** -/
theorem Rule.seen_findings (rule : Rule) (answer : Answer) :
    (rule.findings answer).filterMap Finding.seen? = rule.instances answer := by
  unfold findings instances
  generalize rule.query = query
  cases query <;> cases answer <;> first
    | rfl
    | exact Metrics.seen_findings ..
    | exact Logs.seen_findings ..
    | exact Traces.seen_findings ..
    | exact Cloud.seen_findings ..
    | exact Kube.seen_findings ..

end Alerting
