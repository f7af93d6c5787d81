import Alerting.Proofs.Dispatch.Events

/-!
# The labels of an event

The labels of an event are those of its observation, and the rule's external labels where the observation has none
(`Observation.given`). Two labels are always what the observation says (`Observation.get?_event_severity`,
`Observation.get?_event_ruleName`), and the label of the first value is that of the live record, if there is one
(`Observation.get?_event_firstValue_of_live`, `Observation.get?_event_firstValue_of_new`). Every other label of an
event is the given one (`Observation.get?_event`).
-/

namespace Alerting

/-- Entries that are put in where nothing is stored yet fill a table up. -/
theorem Table.get?_foldl_insertIfNew (es : List (String × String)) (t : Table String) (k : String) :
    (es.foldl (fun ls e => ls.insertIfNew e.1 e.2) t).get? k = (t.get? k).or (lookup k es) := by
  induction es generalizing t with
  | nil => exact Option.or_none.symm
  | cons e es ih =>
    rw [List.foldl_cons, ih, get?_insertIfNew]
    by_cases hk : k = e.1
    · subst hk
      cases t.get? e.1 <;> simp [lookup]
    · simp [lookup, hk]

namespace Observation

/-- The label that an observation has, or else the one that its rule has for every event. -/
def given (o : Observation) (rule : Rule) (key : String) : Option String :=
  (o.labels.get? key).or (rule.externalLabels.get? key)

section Labels

variable (o : Observation) (rule : Rule) (datasource id : String) (now : Instant)

theorem given_of_label {o : Observation} {key v : String} (h : o.labels.get? key = some v) (rule : Rule) :
    o.given rule key = some v := by
  rw [given, h, Option.some_or]

/-! ## Drafts -/

theorem get?_draft {key : String} (hseverity : key ≠ severityLabel) (hname : key ≠ ruleNameLabel) :
    (o.draft rule datasource id now).labels.get? key = o.given rule key := by
  show (((rule.externalLabels.toList.foldl (fun ls e => ls.insertIfNew e.1 e.2) o.labels).insert severityLabel
    o.severity.name).insert ruleNameLabel rule.name).get? key = o.given rule key
  rw [Table.get?_insert, if_neg hname, Table.get?_insert, if_neg hseverity, Table.get?_foldl_insertIfNew]
  rfl

theorem get?_draft_ruleName : (o.draft rule datasource id now).labels.get? ruleNameLabel = some rule.name :=
  Table.get?_insert_self ..

theorem get?_draft_severity : (o.draft rule datasource id now).labels.get? severityLabel = some o.severity.name := by
  have hne : severityLabel ≠ ruleNameLabel := by decide
  show (Table.insert _ ruleNameLabel rule.name).get? severityLabel = _
  rw [Table.get?_insert, if_neg hne, Table.get?_insert_self]

/-! ## Events -/

/-- Merging a draft changes no label but that of the first value. -/
theorem get?_event_eq_draft {key : String} (hfirst : key ≠ firstValueLabel) (record : Option Event) :
    (o.event rule datasource id now record).labels.get? key = (o.draft rule datasource id now).labels.get? key := by
  rcases Event.live_or_new record with ⟨c, rfl, hlive⟩ | hnew
  · rw [o.event_of_live rule datasource id now hlive]
    simp only [annotate, Event.continued]
    split
    · rw [Table.get?_insert, if_neg hfirst]
    · rfl
  · rw [o.event_of_new rule datasource id now hnew]
    simp only [annotate, Event.started]
    split
    · rw [Table.get?_insertIfNew, if_neg hfirst]
    · rfl

/-- **An unreserved label of an event is the given one.** -/
theorem get?_event {key : String} (hseverity : key ≠ severityLabel) (hname : key ≠ ruleNameLabel)
    (hfirst : key ≠ firstValueLabel) (record : Option Event) :
    (o.event rule datasource id now record).labels.get? key = o.given rule key := by
  rw [o.get?_event_eq_draft rule datasource id now hfirst, o.get?_draft rule datasource id now hseverity hname]

/-- The event of an observation has the observed value. -/
theorem value?_event {o : Observation} {value : String} (h : o.labels.get? valueLabel = some value)
    (record : Option Event) : (o.event rule datasource id now record).value? = some value := by
  rw [Event.value?, o.get?_event rule datasource id now (by decide) (by decide) (by decide), given_of_label h]

theorem get?_event_severity (record : Option Event) :
    (o.event rule datasource id now record).labels.get? severityLabel = some o.severity.name := by
  rw [o.get?_event_eq_draft rule datasource id now (by decide), get?_draft_severity]

theorem get?_event_ruleName (record : Option Event) :
    (o.event rule datasource id now record).labels.get? ruleNameLabel = some rule.name := by
  rw [o.get?_event_eq_draft rule datasource id now (by decide), get?_draft_ruleName]

/-- The first value of a live record stays. -/
theorem get?_event_firstValue_of_live {c : Event} (h : c.status.isTerminal = false) {v : String}
    (hv : c.firstValue? = some v) :
    (o.event rule datasource id now (some c)).labels.get? firstValueLabel = some v := by
  rw [o.event_of_live rule datasource id now h]
  simp only [annotate, Event.continued, hv]
  exact Table.get?_insert_self ..

/-- The first value of a new generation is the given one, and the observed one if none is given. -/
theorem get?_event_firstValue_of_new {o : Observation} {value : String} (h : o.labels.get? valueLabel = some value)
    {record : Option Event} (hnew : ∀ c, record = some c → c.status.isTerminal = true) :
    (o.event rule datasource id now record).labels.get? firstValueLabel =
      some ((o.given rule firstValueLabel).getD value) := by
  have hvalue : (o.draft rule datasource id now).value? = some value := by
    rw [Event.value?, o.get?_draft rule datasource id now (by decide) (by decide), given_of_label h]
  rw [o.event_of_new rule datasource id now hnew]
  simp only [annotate, Event.started, hvalue]
  rw [Table.get?_insertIfNew, if_pos rfl, o.get?_draft rule datasource id now (by decide) (by decide)]

end Labels

end Observation

end Alerting
