import Alerting.Rule.Basic

/-!
# The order of severities

Severities are ordered by their rank, and those of one rank by their name. The order is total, and only equal severities
are as urgent as each other (`Severity.le_antisymm`), so the severity rules of a rule have one order in which rules of
one severity stand as they were given: the sorted list is determined by the rules of each severity
(`SeverityRule.eq_of_classes`). Hence it does not matter whether some of them are left out before or after they are
ordered (`SeverityRule.filter_mergeSort`).
-/

namespace Alerting

/-! ## Severities -/

namespace Severity

variable {a b c : Severity}

theorem le_iff : a.le b = true ↔ a.rank < b.rank ∨ a.rank = b.rank ∧ a.name ≤ b.name := by
  rw [le, lt, Bool.not_eq_true', Bool.or_eq_false_iff, Bool.and_eq_false_iff, decide_eq_false_iff_not,
    decide_eq_false_iff_not, beq_eq_false_iff_ne, Nat.not_lt, String.not_lt]
  constructor
  · rintro ⟨hle, hname⟩
    rcases Nat.lt_or_eq_of_le hle with hlt | heq
    · exact .inl hlt
    · exact .inr ⟨heq, hname.resolve_left fun hne => hne heq.symm⟩
  · rintro (hlt | ⟨heq, hname⟩)
    · exact ⟨Nat.le_of_lt hlt, .inl (Nat.ne_of_gt hlt)⟩
    · exact ⟨Nat.le_of_eq heq, .inr hname⟩

theorem le_refl (a : Severity) : a.le a = true := le_iff.mpr (.inr ⟨rfl, String.le_refl _⟩)

theorem le_trans (h : a.le b = true) (h' : b.le c = true) : a.le c = true := by
  rw [le_iff] at *
  rcases h with h | ⟨h, hname⟩ <;> rcases h' with h' | ⟨h', hname'⟩
  · exact .inl (Nat.lt_trans h h')
  · exact .inl (h' ▸ h)
  · exact .inl (h ▸ h')
  · exact .inr ⟨h.trans h', String.le_trans hname hname'⟩

theorem le_total (a b : Severity) : (a.le b || b.le a) = true := by
  rw [Bool.or_eq_true, le_iff, le_iff]
  rcases Nat.lt_trichotomy a.rank b.rank with h | h | h
  · exact .inl (.inl h)
  · exact (String.le_total a.name b.name).imp (fun hn => .inr ⟨h, hn⟩) fun hn => .inr ⟨h.symm, hn⟩
  · exact .inr (.inl h)

/-- Severities that are as urgent as each other are equal. -/
theorem le_antisymm (h : a.le b = true) (h' : b.le a = true) : a = b := by
  rw [le_iff] at h h'
  rcases h with h | ⟨h, hname⟩ <;> rcases h' with h' | ⟨h', hname'⟩
  · omega
  · omega
  · omega
  · have hn := String.le_antisymm hname hname'
    cases a
    cases b
    exact congrArg _ hn

end Severity

/-! ## Severity rules -/

namespace SeverityRule

/-- Whether a severity rule is at least as urgent as another. -/
def le (a b : SeverityRule) : Bool := a.severity.le b.severity

theorem le_trans (a b c : SeverityRule) (h : a.le b = true) (h' : b.le c = true) : a.le c = true :=
  Severity.le_trans h h'

theorem le_total (a b : SeverityRule) : (a.le b || b.le a) = true := Severity.le_total ..

/-- The rules of a severity, in their order. -/
def ofSeverity (rules : List SeverityRule) (s : Severity) : List SeverityRule := rules.filter (·.severity = s)

theorem mem_ofSeverity {rules : List SeverityRule} {s : Severity} {a : SeverityRule} :
    a ∈ ofSeverity rules s ↔ a ∈ rules ∧ a.severity = s := by simp [ofSeverity]

/-- Lists with the same rules of every severity have the same rules. -/
theorem mem_iff_of_classes {l l' : List SeverityRule} (h : ∀ s, ofSeverity l s = ofSeverity l' s) (a : SeverityRule) :
    a ∈ l ↔ a ∈ l' := by
  have ha : a ∈ ofSeverity l a.severity ↔ a ∈ ofSeverity l' a.severity := by rw [h]
  simpa [mem_ofSeverity] using ha

/-- The first of some rules is at least as urgent as each of them. -/
theorem le_of_mem {a b : SeverityRule} {l : List SeverityRule} (h : (a :: l).Pairwise fun a b => a.le b = true)
    (hb : b ∈ a :: l) : a.le b = true := by
  rcases List.mem_cons.mp hb with rfl | hb
  · exact Severity.le_refl _
  · exact (List.pairwise_cons.mp h).1 b hb

/-- **Ordered lists with the same rules of every severity are equal.** -/
theorem eq_of_classes {l l' : List SeverityRule} (hl : l.Pairwise fun a b => a.le b = true)
    (hl' : l'.Pairwise fun a b => a.le b = true) (h : ∀ s, ofSeverity l s = ofSeverity l' s) : l = l' := by
  induction l generalizing l' with
  | nil => exact (List.eq_nil_iff_forall_not_mem.mpr fun a ha => nomatch (mem_iff_of_classes h a).mpr ha).symm
  | cons a l ih =>
    cases l' with
    | nil => exact nomatch (mem_iff_of_classes h a).mp List.mem_cons_self
    | cons b l' =>
      -- Both lists begin with a most urgent severity, so with the first rule of that severity.
      have hs : a.severity = b.severity := Severity.le_antisymm
        (le_of_mem hl ((mem_iff_of_classes h b).mpr List.mem_cons_self))
        (le_of_mem hl' ((mem_iff_of_classes h a).mp List.mem_cons_self))
      have hhead := h a.severity
      simp only [ofSeverity, List.filter_cons, hs, decide_true, if_true, List.cons.injEq] at hhead
      obtain ⟨rfl, htail⟩ := hhead
      refine congrArg _ (ih (List.pairwise_cons.mp hl).2 (List.pairwise_cons.mp hl').2 fun s => ?_)
      by_cases hsev : a.severity = s
      · exact hsev ▸ htail
      · have hclass := h s
        rwa [ofSeverity, ofSeverity, List.filter_cons_of_neg (by simpa using hsev),
          List.filter_cons_of_neg (by simpa using hsev)] at hclass

/-- Ordering keeps the rules of every severity in their order. -/
theorem ofSeverity_mergeSort (rules : List SeverityRule) (s : Severity) :
    ofSeverity (rules.mergeSort le) s = ofSeverity rules s := by
  have hclass : (ofSeverity rules s).Pairwise fun a b => a.le b = true :=
    List.pairwise_of_forall_mem_list fun a ha b hb => by
      rw [le, (mem_ofSeverity.mp ha).2, (mem_ofSeverity.mp hb).2]
      exact Severity.le_refl s
  have hsub : (ofSeverity rules s).Sublist (rules.mergeSort le) :=
    List.sublist_mergeSort le_trans le_total hclass List.filter_sublist
  have hsub' := hsub.filter fun a : SeverityRule => decide (a.severity = s)
  rw [ofSeverity, List.filter_filter] at hsub'
  simp only [Bool.and_self] at hsub'
  exact (hsub'.eq_of_length ((List.mergeSort_perm rules le).filter _).length_eq.symm).symm

/-- **Rules can be left out before or after they are ordered.** -/
theorem filter_mergeSort (rules : List SeverityRule) (p : SeverityRule → Bool) :
    (rules.mergeSort le).filter p = (rules.filter p).mergeSort le := by
  refine eq_of_classes ((List.pairwise_mergeSort le_trans le_total rules).sublist List.filter_sublist)
    (List.pairwise_mergeSort le_trans le_total _) fun s => ?_
  have hcomm : ∀ l : List SeverityRule, ofSeverity (l.filter p) s = (ofSeverity l s).filter p := fun l => by
    simp only [ofSeverity, List.filter_filter, Bool.and_comm]
  rw [ofSeverity_mergeSort, hcomm, hcomm, ofSeverity_mergeSort]

end SeverityRule

namespace Rule

variable (rule : Rule)

theorem perm_orderedSeverityRules : rule.orderedSeverityRules.Perm rule.severityRules := List.mergeSort_perm ..

/-- More urgent rules come first. -/
theorem pairwise_orderedSeverityRules :
    rule.orderedSeverityRules.Pairwise fun a b => a.severity.le b.severity = true :=
  List.pairwise_mergeSort SeverityRule.le_trans SeverityRule.le_total _

/-- Rules of one severity keep their order. -/
theorem ofSeverity_orderedSeverityRules (s : Severity) :
    SeverityRule.ofSeverity rule.orderedSeverityRules s = SeverityRule.ofSeverity rule.severityRules s :=
  SeverityRule.ofSeverity_mergeSort ..

end Rule

end Alerting
