import Alerting.Dispatch.Finding

/-!
# What a rule can find

A finding makes a fingerprint current, or it has one that is outranked, or it reports none (`Finding.current?`,
`Finding.outranked?`).

The findings of the five families have some things in common, which are said here at once (`Rule.CanFind`): every
fingerprint is a hash, every match has the observed value among its labels, only metrics rules look at what does not
match, and only cloud rules have configured instances. A rule finds nothing else in any answer (`Rule.canFind_of_mem`),
so what holds of the findings of all families is read off four cases.
-/

namespace Alerting

/-! ## What a finding reports -/

/-- The fingerprint that a finding is about. -/
def Finding.fingerprint? : Finding → Option String
  | malformed .. => none
  | matched o => some o.fingerprint
  | unmatched fingerprint _ => some fingerprint
  | configured fingerprint => some fingerprint

/-- The fingerprint that a finding makes current. -/
def Finding.current? : Finding → Option String
  | matched o => if o.suppressed then none else some o.fingerprint
  | configured fingerprint => some fingerprint
  | _ => none

/-- The fingerprint of a match that is outranked. -/
def Finding.outranked? : Finding → Option String
  | matched o => if o.suppressed then some o.fingerprint else none
  | _ => none

namespace Finding

variable {f : Finding} {k : String}

/-- What is current matches or is configured. -/
theorem eq_of_current? (h : f.current? = some k) : (∃ o, f = .matched o ∧ o.fingerprint = k) ∨ f = .configured k := by
  cases f with
  | malformed | unmatched => cases h
  | configured fingerprint => exact .inr (congrArg configured (Option.some.inj h))
  | matched o =>
    simp only [current?] at h
    split at h
    · cases h
    · exact .inl ⟨o, rfl, Option.some.inj h⟩

/-- What is outranked matches. -/
theorem eq_of_outranked? (h : f.outranked? = some k) : ∃ o, f = .matched o ∧ o.fingerprint = k := by
  cases f with
  | malformed | unmatched | configured => cases h
  | matched o =>
    simp only [outranked?] at h
    split at h
    · exact ⟨o, rfl, Option.some.inj h⟩
    · cases h

theorem fingerprint?_of_current? (h : f.current? = some k) : f.fingerprint? = some k := by
  rcases eq_of_current? h with ⟨o, rfl, rfl⟩ | rfl <;> rfl

theorem fingerprint?_of_outranked? (h : f.outranked? = some k) : f.fingerprint? = some k := by
  obtain ⟨o, rfl, rfl⟩ := eq_of_outranked? h
  rfl

end Finding

/-! ## Family by family -/

/-- What a rule can find in an answer. -/
inductive Rule.CanFind (rule : Rule) : Finding → Prop
  | malformed (severity : Severity) (error : EngineError) : rule.query.family = .metrics →
      rule.CanFind (.malformed severity error)
  | matched (o : Observation) (fields : List String) : o.fingerprint = Fingerprint.ofFields fields →
      (o.labels.get? valueLabel).isSome = true → rule.CanFind (.matched o)
  | unmatched (fields : List String) (value : String) : rule.query.family = .metrics →
      rule.CanFind (.unmatched (Fingerprint.ofFields fields) value)
  | configured (fields : List String) : rule.query.family = .cloudMetrics →
      rule.CanFind (.configured (Fingerprint.ofFields fields))

variable {rule : Rule} {f : Finding}

theorem Metrics.canFind_of_mem_judge (hfamily : rule.query.family = .metrics) {query : String} {series : MetricSeries}
    {outranked : Bool} {rules : List SeverityRule} (h : f ∈ judge rule.id query series outranked rules) :
    rule.CanFind f := by
  induction rules generalizing outranked with
  | nil => cases h
  | cons s rules ih =>
    rw [judge] at h
    split at h
    · rcases List.mem_cons.mp h with rfl | h
      · exact .malformed _ _ hfamily
      · exact ih h
    · dsimp only at h
      split at h
      · rcases List.mem_cons.mp h with rfl | h
        · exact .matched _ _ rfl (by rw [Table.get?_insert_self]; rfl)
        · exact ih h
      · rcases List.mem_cons.mp h with rfl | h
        · exact .unmatched _ _ hfamily
        · exact ih h

theorem Kube.canFind_of_judge {ns object reason : String} {threshold windowSecs : Nat} {severity : Severity}
    {events : List KubeEvent} (h : judge rule ns threshold windowSecs severity object reason events = some f) :
    rule.CanFind f := by
  cases events with
  | nil => cases h
  | cons first more =>
    rw [judge] at h
    split at h
    · cases h
    · cases h
      exact .matched _ _ rfl (Table.isSome_ofList (by simp))

/-- **A rule finds only what it can find**, in every answer. -/
theorem Rule.canFind_of_mem {answer : Answer} (h : f ∈ rule.findings answer) : rule.CanFind f := by
  unfold findings at h
  split at h
  · next hq =>
    obtain ⟨series, -, h⟩ := List.mem_flatMap.mp h
    exact Metrics.canFind_of_mem_judge (by rw [hq]; rfl) h
  · simp only [Logs.findings] at h
    split at h
    · obtain rfl := List.mem_singleton.mp h
      exact .matched _ _ rfl rfl
    · cases h
  · obtain ⟨t, -, rfl⟩ := List.mem_map.mp h
    exact .matched _ _ rfl (Table.isSome_ofList (by simp))
  · next hq =>
    obtain ⟨endpoint, -, rfl⟩ := List.mem_map.mp h
    dsimp only
    split
    · exact .configured _ (by rw [hq]; rfl)
    · exact .matched _ _ rfl (Table.isSome_ofList (by simp))
  · obtain ⟨group, -, h⟩ := List.mem_filterMap.mp h
    exact Kube.canFind_of_judge h
  · cases h

namespace Rule

/-- The findings of a rule are about fingerprints of fields. -/
theorem exists_fields_of_mem_findings {rule : Rule} {answer : Answer} {f : Finding} (hf : f ∈ rule.findings answer)
    {k : String} (hk : f.fingerprint? = some k) : ∃ fields, k = Fingerprint.ofFields fields := by
  cases canFind_of_mem hf with
  | malformed => cases hk
  | matched o fields hfields => exact ⟨fields, (Option.some.inj hk).symm.trans hfields⟩
  | unmatched fields | configured fields => exact ⟨fields, (Option.some.inj hk).symm⟩

/-- Only metrics rules look at what does not match. -/
theorem unmatched_not_mem (h : rule.query.family ≠ .metrics) (answer : Answer) (k value : String) :
    .unmatched k value ∉ rule.findings answer := by
  intro hk
  cases canFind_of_mem hk with
  | unmatched fields value hfamily => exact h hfamily

/-- Only cloud rules have configured instances. -/
theorem configured_not_mem (h : rule.query.family ≠ .cloudMetrics) (answer : Answer) (k : String) :
    .configured k ∉ rule.findings answer := by
  intro hk
  cases canFind_of_mem hk with
  | configured fields hfamily => exact h hfamily

end Rule

end Alerting
