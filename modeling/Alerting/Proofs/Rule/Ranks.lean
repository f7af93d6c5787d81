import Alerting.Proofs.Dispatch.Metrics
import Alerting.Proofs.Text.Decimal

/-!
# The ranks of severities

A severity `P<n>` has its number as its rank, as far as that is below the last rank, and so has one with a plus sign in
front of its number; all others have the last rank. So numbers order severities below the last rank, and put them ahead
of those without a number; from there on names decide (`Severity.lt_of_numbers`, `Severity.lt_of_no_number`).

The severity rules of a rule are judged in this order. The match that is current for a series has therefore a severity
at least as urgent as that of every other match (`Metrics.le_of_mem_judge`).
-/

namespace Alerting

namespace Severity

/-! ## Numbers -/

/-- The severity is of the form `P<n>`. -/
def IsNumbered (s : Severity) (n : Nat) : Prop :=
  ∃ letter ∈ ['P', 'p'], ∃ cs, s.name.toList = letter :: cs ∧ Text.Denotes cs n

/-- The severity is of the form `P+<n>`. -/
def IsSigned (s : Severity) (n : Nat) : Prop :=
  ∃ letter ∈ ['P', 'p'], ∃ cs, s.name.toList = letter :: '+' :: cs ∧ Text.Denotes cs n

section Ranks

variable {a b s : Severity} {m n : Nat}

theorem isNumbered_decimal (n : Nat) : IsNumbered ⟨"P" ++ Nat.repr n⟩ n :=
  ⟨'P', by decide, Text.decimal n, by simp [Text.decimal], Text.denotes_decimal n⟩

theorem letter_of_numbered (h : s.IsNumbered n ∨ s.IsSigned n) :
    ∃ letter ∈ ['P', 'p'], s.name.toList.head? = some letter := by
  rcases h with ⟨letter, hletter, cs, hname, -⟩ | ⟨letter, hletter, cs, hname, -⟩ <;>
    exact ⟨letter, hletter, by rw [hname]; rfl⟩

/-- A name that begins with another letter has no number. -/
theorem no_number (h : ∀ letter ∈ ['P', 'p'], s.name.toList.head? ≠ some letter) (n : Nat) :
    ¬s.IsNumbered n ∧ ¬s.IsSigned n := by
  constructor <;> intro hn
  · obtain ⟨letter, hletter, hhead⟩ := letter_of_numbered (.inl hn)
    exact h letter hletter hhead
  · obtain ⟨letter, hletter, hhead⟩ := letter_of_numbered (.inr hn)
    exact h letter hletter hhead

/-- The number is what is read behind the letter. -/
theorem number?_of_letter {letter : Char} (hletter : letter ∈ ['P', 'p']) {cs : List Char}
    (hname : s.name.toList = letter :: cs) : s.number? = Text.readBelow? (Nat.pow 2 32) cs := by
  simp only [List.mem_cons, List.not_mem_nil, or_false] at hletter
  rw [number?, hname]
  rcases hletter with rfl | rfl <;> rfl

theorem isNumbered_or_isSigned_of_number? (h : s.number? = some n) : s.IsNumbered n ∨ s.IsSigned n := by
  have hread : ∃ letter ∈ ['P', 'p'], ∃ cs, s.name.toList = letter :: cs ∧
      Text.readBelow? (Nat.pow 2 32) cs = some n := by
    unfold number? at h
    split at h
    · next cs hname => exact ⟨'P', by decide, cs, hname, h⟩
    · next cs hname => exact ⟨'p', by decide, cs, hname, h⟩
    · cases h
  obtain ⟨letter, hletter, cs, hname, hcs⟩ := hread
  obtain ⟨ds, rfl | rfl, hds⟩ := Text.denotes_of_readBelow? hcs
  · exact .inl ⟨letter, hletter, cs, hname, hds⟩
  · exact .inr ⟨letter, hletter, ds, hname, hds⟩

/-- Numbers that do not fit into 32 bits have the last rank, as has the greatest of those that do. -/
theorem getD_filter_lastRank (n : Nat) : ((some n).filter (· < Nat.pow 2 32)).getD lastRank = min n lastRank := by
  by_cases h : n < Nat.pow 2 32
  · have hle : n ≤ lastRank := Nat.le_sub_one_of_lt h
    simp [Option.filter, h, Nat.min_eq_left hle]
  · have hle : lastRank ≤ n := Nat.le_trans (Nat.sub_le _ 1) (Nat.not_lt.mp h)
    simp [Option.filter, h, Nat.min_eq_right hle]

/-- **The rank of a numbered severity is its number, up to the last rank.** -/
theorem rank_of_numbered (h : s.IsNumbered n) : s.rank = min n lastRank := by
  obtain ⟨letter, hletter, cs, hname, hcs⟩ := h
  rw [rank, number?_of_letter hletter hname, Text.readBelow?_of_denotes hcs, getD_filter_lastRank]

theorem rank_of_signed (h : s.IsSigned n) : s.rank = min n lastRank := by
  obtain ⟨letter, hletter, cs, hname, hcs⟩ := h
  rw [rank, number?_of_letter hletter hname, Text.readBelow?_plus hcs, getD_filter_lastRank]

theorem rank_of_no_number (h : ∀ n, ¬s.IsNumbered n) (h' : ∀ n, ¬s.IsSigned n) : s.rank = lastRank := by
  rw [rank]
  cases hn : s.number? with
  | none => rfl
  | some n => exact ((isNumbered_or_isSigned_of_number? hn).elim (h n) (h' n)).elim

/-! ## The order -/

theorem lt_iff : a.lt b = true ↔ a.rank < b.rank ∨ a.rank = b.rank ∧ a.name < b.name := by
  simp [lt]

/-- A severity comes before another if it is another one and at least as urgent. -/
theorem lt_iff_le_and_ne : a.lt b = true ↔ a.le b = true ∧ a ≠ b := by
  constructor
  · intro h
    have hle : a.le b = true := by
      rcases lt_iff.mp h with hr | ⟨hr, hname⟩
      · exact le_iff.mpr (.inl hr)
      · exact le_iff.mpr (.inr ⟨hr, String.not_lt.mp (String.lt_asymm hname)⟩)
    refine ⟨hle, ?_⟩
    rintro rfl
    rcases lt_iff.mp h with hr | ⟨-, hname⟩
    · exact Nat.lt_irrefl _ hr
    · exact String.lt_irrefl _ hname
  · rintro ⟨hle, hne⟩
    refine Decidable.byContradiction fun hlt => hne (le_antisymm hle ?_)
    rw [le, Bool.eq_false_iff.mpr hlt]
    rfl

/-- **Numbers decide below the last rank, and names from there on.** -/
theorem lt_of_numbers (ha : a.IsNumbered n) (hb : b.IsNumbered m) (h : n < m) :
    a.lt b = true ↔ n < lastRank ∨ a.name < b.name := by
  rw [lt_iff, rank_of_numbered ha, rank_of_numbered hb]
  by_cases hn : n < lastRank
  · simp only [hn, true_or, iff_true]
    omega
  · have hmin : min n lastRank = min m lastRank := by omega
    simp [hn, hmin]

/-- A severity without a number comes behind all whose number is below the last rank. -/
theorem lt_of_no_number (ha : a.IsNumbered n) (hb : ∀ m, ¬b.IsNumbered m) (hb' : ∀ m, ¬b.IsSigned m) :
    a.lt b = true ↔ n < lastRank ∨ a.name < b.name := by
  rw [lt_iff, rank_of_numbered ha, rank_of_no_number hb hb']
  by_cases hn : n < lastRank
  · simp only [hn, true_or, iff_true]
    omega
  · have hmin : min n lastRank = lastRank := Nat.min_eq_right (Nat.not_lt.mp hn)
    simp [hn, hmin]

/-- A sign makes no difference to the rank. -/
theorem lt_of_signed (ha : a.IsNumbered n) (hb : b.IsSigned m) :
    a.lt b = true ↔ min n lastRank < min m lastRank ∨ min n lastRank = min m lastRank ∧ a.name < b.name := by
  rw [lt_iff, rank_of_numbered ha, rank_of_signed hb]

end Ranks

end Severity

/-! ## The match that counts -/

/-- The observation of a match that no other one outranks. -/
def Finding.counting? : Finding → Option Observation
  | matched o => if o.suppressed then none else some o
  | _ => none

/-- **The first check that a series meets is the one that counts**, unless one was met before. -/
theorem Metrics.counting_judge (rule query : String) (series : MetricSeries) (rules : List SeverityRule)
    (outranked : Bool) :
    (judge rule query series outranked rules).filterMap Finding.counting? =
      if outranked then []
      else (((rules.filterMap SeverityRule.check?).filter (·.isMet series)).head?.map
        (observation rule query series false)).toList := by
  induction rules generalizing outranked with
  | nil => cases outranked <;> rfl
  | cons s rules ih =>
    cases ht : Threshold.ofExpr s.expr with
    | error error =>
      rw [judge_of_error outranked ht, List.filterMap_cons_none (SeverityRule.check?_of_error ht)]
      exact ih outranked
    | ok threshold =>
      rw [List.filterMap_cons_some (SeverityRule.check?_of_ok ht), List.filter_cons]
      cases hm : Check.isMet ⟨s.severity, threshold⟩ series with
      | true =>
        have htail := ih true
        rw [judge_of_met outranked ht hm, List.filterMap_cons, htail]
        cases outranked <;> rfl
      | false =>
        rw [judge_of_unmet outranked ht hm]
        exact ih outranked

theorem SeverityRule.severity_of_check? {s : SeverityRule} {c : Check} (h : s.check? = some c) :
    c.severity = s.severity := by
  obtain ⟨threshold, -, rfl⟩ := Option.map_eq_some_iff.mp h
  rfl

namespace Rule

/-- The checks that a series meets stand in the order of their severities. -/
theorem pairwise_hits (rule : Rule) (series : MetricSeries) :
    (rule.hits series).Pairwise fun c d => c.severity.le d.severity = true := by
  refine List.Pairwise.filter _ (rule.pairwise_orderedSeverityRules.filterMap SeverityRule.check? ?_)
  intro a b hab c hc d hd
  rwa [SeverityRule.severity_of_check? hc, SeverityRule.severity_of_check? hd]

theorem mem_hits {rule : Rule} {series : MetricSeries} {s : SeverityRule} {c : Check} (hs : s ∈ rule.severityRules)
    (hc : s.check? = some c) (hm : c.isMet series = true) : c ∈ rule.hits series :=
  List.mem_filter.mpr ⟨List.mem_filterMap.mpr ⟨s, rule.perm_orderedSeverityRules.mem_iff.mpr hs, hc⟩, hm⟩

/-- **The first check that a series meets is at least as urgent as every other one that it meets.** -/
theorem le_of_head_hits {rule : Rule} {series : MetricSeries} {c d : Check} (hc : (rule.hits series).head? = some c)
    (hd : d ∈ rule.hits series) : c.severity.le d.severity = true := by
  have hp := rule.pairwise_hits series
  cases hits : rule.hits series with
  | nil =>
    rw [hits] at hc
    cases hc
  | cons first rest =>
    rw [hits] at hc hd hp
    cases hc
    rcases List.mem_cons.mp hd with rfl | hd
    · exact Severity.le_refl _
    · exact (List.pairwise_cons.mp hp).1 d hd

/-- The severity rules are judged in the order of their severities, and in the given order within one severity, so that
the match that counts for a series is a most urgent one. -/
structure JudgedByUrgency (rule : Rule) : Prop where
  perm : rule.orderedSeverityRules.Perm rule.severityRules
  sorted : rule.orderedSeverityRules.Pairwise fun a b => a.severity.le b.severity = true
  stable : ∀ s, SeverityRule.ofSeverity rule.orderedSeverityRules s = SeverityRule.ofSeverity rule.severityRules s
  counting : ∀ query series,
    (Metrics.judge rule.id query series false rule.orderedSeverityRules).filterMap Finding.counting? =
      ((rule.hits series).head?.map (Metrics.observation rule.id query series false)).toList
  mostUrgent : ∀ series c, (rule.hits series).head? = some c → ∀ s ∈ rule.severityRules, ∀ d, s.check? = some d →
    d.isMet series = true → c.severity.le s.severity = true

theorem judgedByUrgency (rule : Rule) : rule.JudgedByUrgency where
  perm := rule.perm_orderedSeverityRules
  sorted := rule.pairwise_orderedSeverityRules
  stable := rule.ofSeverity_orderedSeverityRules
  counting query series := Metrics.counting_judge rule.id query series rule.orderedSeverityRules false
  mostUrgent series c hc s hs d hd hm := by
    have hle := le_of_head_hits hc (mem_hits hs hd hm)
    rwa [SeverityRule.severity_of_check? hd] at hle

end Rule

/-! ## The whole order -/

namespace Severity

/-- **Severities are ordered by urgency, as far as their numbers are below the last rank.** The order is total, and only
equal severities are as urgent as each other. Of two numbered severities the one with the lower number comes first, and
a numbered severity comes before those without a number, exactly if its number is below the last rank or its name comes
first; a number with a sign counts as the number. The severity rules of every rule are judged in this order. -/
theorem ordered_below_lastRank (a b c : Severity) (rule : Rule) :
    ((a.le b || b.le a) = true ∧ (a.le b = true → b.le c = true → a.le c = true) ∧
      (a.le b = true → b.le a = true → a = b) ∧ (a.lt b = true ↔ a.le b = true ∧ a ≠ b)) ∧
    (∀ n m, a.IsNumbered n → b.IsNumbered m → n < m → (a.lt b = true ↔ n < lastRank ∨ a.name < b.name)) ∧
    (∀ n, a.IsNumbered n → (∀ m, ¬b.IsNumbered m) → (∀ m, ¬b.IsSigned m) →
      (a.lt b = true ↔ n < lastRank ∨ a.name < b.name)) ∧
    (∀ n m, a.IsNumbered n → b.IsSigned m →
      (a.lt b = true ↔
        min n lastRank < min m lastRank ∨ min n lastRank = min m lastRank ∧ a.name < b.name)) ∧
    rule.JudgedByUrgency :=
  ⟨⟨le_total a b, le_trans, le_antisymm, lt_iff_le_and_ne⟩, fun _ _ => lt_of_numbers, fun _ => lt_of_no_number,
    fun _ _ => lt_of_signed, rule.judgedByUrgency⟩

theorem ordered_below_lastRank_small :
    (⟨"p9"⟩ : Severity).lt ⟨"P10"⟩ = true ∧ (⟨"P10"⟩ : Severity).lt ⟨"Info"⟩ = true ∧
      (⟨"P10"⟩ : Severity).lt ⟨"P+11"⟩ = true := by
  have h9 : (⟨"p9"⟩ : Severity).IsNumbered 9 := ⟨'p', by decide, Text.decimal 9, by decide, Text.denotes_decimal 9⟩
  have h10 : (⟨"P10"⟩ : Severity).IsNumbered 10 := isNumbered_decimal 10
  have h11 : (⟨"P+11"⟩ : Severity).IsSigned 11 := ⟨'P', by decide, Text.decimal 11, by decide, Text.denotes_decimal 11⟩
  have hinfo := no_number (s := ⟨"Info"⟩) (by simp)
  have h (a b : Severity) := ordered_below_lastRank a b a .errorCount
  refine ⟨((h _ _).2.1 9 10 h9 h10 (by decide)).mpr (.inl (by decide)),
    ((h _ _).2.2.1 10 h10 (fun m => (hinfo m).1) fun m => (hinfo m).2).mpr (.inl (by decide)),
    ((h _ _).2.2.2.1 10 11 h10 h11).mpr (.inl (by decide))⟩

/-- From the last rank on, and behind a sign, severities are not ordered by their numbers. -/
theorem names_decide_from_lastRank :
    ((⟨"P4294967295"⟩ : Severity).IsNumbered 4294967295 ∧ (∀ n, ¬(⟨"Info"⟩ : Severity).IsNumbered n) ∧
      (⟨"Info"⟩ : Severity).lt ⟨"P4294967295"⟩ = true) ∧
    ((⟨"P9999999999"⟩ : Severity).IsNumbered 9999999999 ∧ (⟨"P10000000000"⟩ : Severity).IsNumbered 10000000000 ∧
      (⟨"P10000000000"⟩ : Severity).lt ⟨"P9999999999"⟩ = true) ∧
    ((⟨"P2"⟩ : Severity).IsNumbered 2 ∧ (∀ n, ¬(⟨"P+1"⟩ : Severity).IsNumbered n) ∧
      (⟨"P+1"⟩ : Severity).lt ⟨"P2"⟩ = true) := by
  refine ⟨⟨isNumbered_decimal 4294967295, fun n => (no_number (by simp) n).1, by decide⟩,
    ⟨isNumbered_decimal 9999999999, isNumbered_decimal 10000000000, by decide⟩,
    ⟨isNumbered_decimal 2, ?_, by decide⟩⟩
  rintro n ⟨letter, -, cs, hname, hcs⟩
  obtain ⟨rfl, rfl⟩ := List.cons.inj (show ['P', '+', '1'] = letter :: cs from hname)
  have hplus := hcs.digits '+' List.mem_cons_self
  revert hplus
  decide

end Severity

end Alerting
