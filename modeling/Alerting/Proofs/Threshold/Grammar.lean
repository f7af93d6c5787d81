import Alerting.Proofs.Number.Numeral
import Alerting.Proofs.Text.Spans
import Alerting.Threshold

/-!
# The grammar of threshold expressions

`Threshold.IsExpr` says how an expression is put together: blanks, perhaps a name for the value and more blanks, the
symbol of an operator, blanks, a number, blanks. The reader takes exactly these texts (`Threshold.ofChars_eq_ok_iff`):

* a symbol begins with another character than a name, so it is clear whether there is a name;
* the longest run of operator characters is the symbol, since neither a blank nor a number begins with one;
* a number has no blanks at its ends.

The text of a threshold is such an expression, as far as its number reads back.
-/

namespace Alerting

/-- The symbols of operators; a single equals sign means the same as two. -/
def Comparison.symbols : List (String × Comparison) :=
  [(">", greater), (">=", greaterOrEqual), ("<", less), ("<=", lessOrEqual), ("==", equal), ("=", equal),
    ("!=", notEqual)]

theorem Comparison.ofSymbol?_eq_some_iff {s : String} {c : Comparison} :
    ofSymbol? s = some c ↔ (s, c) ∈ symbols := by
  unfold ofSymbol?
  split <;> simp_all [symbols, eq_comm]

theorem Comparison.symbol_mem (c : Comparison) : (c.symbol, c) ∈ symbols := by
  cases c <;> decide

namespace Threshold

/-- What may stand in front of the operator: nothing, or a name for the value. -/
def subjects : List (List Char) := [[], "$value".toList, "value".toList]

/-- The expressions of a threshold. -/
inductive IsExpr : List Char → Threshold → Prop
  | intro {before subject gap between number behind : List Char} {symbol : String} {operator : Comparison}
      {bound : Number} : Text.AreBlank before → subject ∈ subjects → Text.AreBlank gap →
      (symbol, operator) ∈ Comparison.symbols → Text.AreBlank between → Number.ofChars? number = some bound →
      bound.isFinite = true → Text.AreBlank behind →
      IsExpr (before ++ subject ++ gap ++ symbol.toList ++ between ++ number ++ behind) ⟨operator, bound⟩

/-! ## Kinds of characters -/

theorem isNumberChar_iff {c : Char} : Text.isNumberChar c = true ↔ (48 ≤ c.toNat ∧ c.toNat ≤ 57) ∨
    (65 ≤ c.toNat ∧ c.toNat ≤ 90) ∨ (97 ≤ c.toNat ∧ c.toNat ≤ 122) ∨ c.toNat = 43 ∨ c.toNat = 45 ∨ c.toNat = 46 := by
  have heq : ∀ d : Char, c = d ↔ c.toNat = d.toNat := fun d =>
    ⟨congrArg _, fun h => Char.toNat_inj.mp h⟩
  simp only [Text.isNumberChar, Text.isDigit, Text.isAlpha_eq, Bool.or_eq_true,
    Bool.and_eq_true, decide_eq_true_eq, beq_iff_eq, heq, Char.le_def, UInt32.le_iff_toNat_le, ge_iff_le]
  change (((48 ≤ c.toNat ∧ c.toNat ≤ 57 ∨ (65 ≤ c.toNat ∧ c.toNat ≤ 90 ∨ 97 ≤ c.toNat ∧ c.toNat ≤ 122)) ∨
    c.toNat = 43) ∨ c.toNat = 45) ∨ c.toNat = 46 ↔ _
  omega

/-- No character of a number is blank. -/
theorem isBlank_of_isNumberChar {c : Char} (h : Text.isNumberChar c = true) : Text.isBlank c = false := by
  have h' := isNumberChar_iff.mp h
  simp only [Text.isBlank, Bool.or_eq_false_iff, Bool.and_eq_false_iff, decide_eq_false_iff_not, beq_eq_false_iff_ne]
  omega

/-- No character of a number belongs to an operator. -/
theorem isOperatorChar_of_isNumberChar {c : Char} (h : Text.isNumberChar c = true) : isOperatorChar c = false := by
  refine Bool.eq_false_iff.mpr fun ho => ?_
  simp only [isOperatorChar, Bool.or_eq_true, beq_iff_eq] at ho
  rcases ho with ((rfl | rfl) | rfl) | rfl <;> revert h <;> decide

/-- No blank belongs to an operator. -/
theorem isOperatorChar_of_isBlank {c : Char} (h : Text.isBlank c = true) : isOperatorChar c = false := by
  refine Bool.eq_false_iff.mpr fun ho => ?_
  simp only [isOperatorChar, Bool.or_eq_true, beq_iff_eq] at ho
  rcases ho with ((rfl | rfl) | rfl) | rfl <;> revert h <;> decide

/-- A symbol is a run of operator characters. -/
theorem operatorChars_of_mem_symbols {symbol : String} {operator : Comparison}
    (h : (symbol, operator) ∈ Comparison.symbols) :
    symbol.toList ≠ [] ∧ ∀ c ∈ symbol.toList, isOperatorChar c = true := by
  have hall : (Comparison.symbols.all fun p => !p.1.toList.isEmpty && p.1.toList.all isOperatorChar) = true := by decide
  have hsymbol := Bool.and_eq_true_iff.mp (List.all_eq_true.mp hall (symbol, operator) h)
  exact ⟨fun hnil => by simp [hnil] at hsymbol, List.all_eq_true.mp hsymbol.2⟩

/-! ## The name of the value -/

section Subject

variable {cs : List Char}

theorem dropSubject_dollar {rest : List Char} : dropSubject ("$value".toList ++ rest) = Text.trimStart rest := by
  rw [dropSubject, Text.dropLead?_eq_some_iff.mpr rfl]

theorem dropSubject_plain {rest : List Char} : dropSubject ("value".toList ++ rest) = Text.trimStart rest := by
  have hno : Text.dropLead? "$value".toList ("value".toList ++ rest) = none := rfl
  rw [dropSubject, hno]
  dsimp only
  rw [Text.dropLead?_eq_some_iff.mpr rfl]

/-- An operator character is not the beginning of a name. -/
theorem dropSubject_of_head {c : Char} (hc : isOperatorChar c = true) : dropSubject (c :: cs) = c :: cs := by
  have hdollar : '$' ≠ c := by rintro rfl; revert hc; decide
  have hplain : 'v' ≠ c := by rintro rfl; revert hc; decide
  have hno : ∀ (a : Char) (lead : List Char), a ≠ c → Text.dropLead? (a :: lead) (c :: cs) = none := fun a lead ha =>
    if_neg ha
  have hno₁ : Text.dropLead? "$value".toList (c :: cs) = none := hno '$' "value".toList hdollar
  have hno₂ : Text.dropLead? "value".toList (c :: cs) = none := hno 'v' "alue".toList hplain
  rw [dropSubject, hno₁, hno₂]

/-- What is dropped is a name, or nothing, and blanks behind it. -/
theorem exists_subject (cs : List Char) :
    ∃ subject ∈ subjects, ∃ gap, Text.AreBlank gap ∧ cs = subject ++ gap ++ dropSubject cs := by
  unfold dropSubject
  split
  · next rest hrest =>
    obtain ⟨gap, hgap, heq⟩ := Text.exists_trimStart rest
    refine ⟨"$value".toList, by decide, gap, hgap, ?_⟩
    rw [List.append_assoc, ← heq]
    exact Text.dropLead?_eq_some_iff.mp hrest
  · split
    · next rest hrest =>
      obtain ⟨gap, hgap, heq⟩ := Text.exists_trimStart rest
      refine ⟨"value".toList, by decide, gap, hgap, ?_⟩
      rw [List.append_assoc, ← heq]
      exact Text.dropLead?_eq_some_iff.mp hrest
    · exact ⟨[], by decide, [], nofun, rfl⟩

end Subject

/-! ## Reading -/

/-- Whatever is read is an expression. -/
theorem isExpr_of_ofChars {cs : List Char} {t : Threshold} (h : ofChars cs = .ok t) : IsExpr cs t := by
  obtain ⟨before, behind, hbefore, hbehind, hcs⟩ := Text.exists_trim_between cs
  obtain ⟨subject, hsubject, gap, hgap, htrim⟩ := exists_subject (Text.trim cs)
  rw [ofChars] at h
  generalize dropSubject (Text.trim cs) = body at h htrim
  obtain ⟨between, behind', hbetween, hbehind', hrest⟩ := Text.exists_trim_between (body.dropWhile isOperatorChar)
  split at h
  · cases h
  · split at h
    · cases h
    · next operator hoperator =>
      split at h
      · cases h
      · next bound hbound =>
        split at h
        · next hfinite =>
          cases h
          have hsplit : cs = before ++ subject ++ gap ++ (String.ofList (body.takeWhile isOperatorChar)).toList ++
              between ++ Text.trim (body.dropWhile isOperatorChar) ++ (behind' ++ behind) := by
            rw [String.toList_ofList]
            calc cs = before ++ (subject ++ gap ++ body) ++ behind := by rw [← htrim]; exact hcs
              _ = before ++ (subject ++ gap ++ (body.takeWhile isOperatorChar ++ body.dropWhile isOperatorChar)) ++
                    behind := by rw [List.takeWhile_append_dropWhile]
              _ = before ++ (subject ++ gap ++ (body.takeWhile isOperatorChar ++
                    (between ++ Text.trim (body.dropWhile isOperatorChar) ++ behind'))) ++ behind := by rw [← hrest]
              _ = _ := by simp only [List.append_assoc]
          rw [hsplit]
          exact .intro hbefore hsubject hgap (Comparison.ofSymbol?_eq_some_iff.mp hoperator) hbetween hbound hfinite
            (hbehind'.append hbehind)
        · cases h

/-- The blanks, the name and the blanks behind it are dropped in front of an operator. -/
theorem dropSubject_trim {before subject gap body behind : List Char} (hbefore : Text.AreBlank before)
    (hsubject : subject ∈ subjects) (hgap : Text.AreBlank gap) (hbehind : Text.AreBlank behind) (hne : body ≠ [])
    (hhead : ∀ c ∈ body.head?, isOperatorChar c = true) (hlast : ∀ c ∈ body.getLast?, Text.isBlank c = false) :
    dropSubject (Text.trim (before ++ (subject ++ (gap ++ body)) ++ behind)) = body := by
  have hblank : ∀ c ∈ body.head?, Text.isBlank c = false := by
    refine fun c hc => Bool.eq_false_iff.mpr fun hb => ?_
    have hop := hhead c hc
    rw [isOperatorChar_of_isBlank hb] at hop
    cases hop
  -- with a name in front, the text starts with the name and ends as the body does
  have named : ∀ (a : Char) (name : List Char), Text.isBlank a = false →
      Text.trim (before ++ (a :: name ++ (gap ++ body)) ++ behind) = a :: name ++ (gap ++ body) := by
    intro a name ha
    refine Text.trim_between hbefore ⟨fun c hc => ?_, fun c hc => hlast c ?_⟩ (by simp) hbehind
    · rw [← Option.some.inj hc]
      exact ha
    · rwa [List.getLast?_append, List.getLast?_append, List.getLast?_eq_some_getLast hne, Option.some_or,
        Option.some_or, ← List.getLast?_eq_some_getLast hne] at hc
  simp only [subjects, List.mem_cons, List.not_mem_nil, or_false] at hsubject
  rcases hsubject with rfl | rfl | rfl
  · rw [List.nil_append, ← List.append_assoc before, Text.trim_between (hbefore.append hgap) ⟨hblank, hlast⟩ hne hbehind]
    obtain ⟨c, cs, rfl⟩ := List.exists_cons_of_ne_nil hne
    exact dropSubject_of_head (hhead c rfl)
  · rw [show "$value".toList = '$' :: "value".toList from rfl, named _ _ (by decide)]
    exact dropSubject_dollar.trans (Text.trimStart_append hgap hblank)
  · rw [show "value".toList = 'v' :: "alue".toList from rfl, named _ _ (by decide)]
    exact dropSubject_plain.trans (Text.trimStart_append hgap hblank)

/-- **The reader takes the operator and the bound of every expression.** -/
theorem IsExpr.ofChars {cs : List Char} {t : Threshold} (h : IsExpr cs t) : Threshold.ofChars cs = .ok t := by
  obtain @⟨before, subject, gap, between, number, behind, symbol, operator, bound, hbefore, hsubject, hgap, hsymbol,
    hbetween, hbound, hfinite, hbehind⟩ := h
  obtain ⟨hne, hops⟩ := operatorChars_of_mem_symbols hsymbol
  have hnumber := Number.ofChars?_chars hbound
  have hnumberNe : number ≠ [] := by
    rintro rfl
    rw [Number.ofChars?_nil] at hbound
    cases hbound
  have hlast : ∀ c ∈ number.getLast?, Text.isBlank c = false := fun c hc =>
    isBlank_of_isNumberChar (hnumber c (List.mem_of_getLast? hc))
  have htrim : Text.trim (between ++ number) = number := by
    have hhead : ∀ c ∈ number.head?, Text.isBlank c = false := fun c hc =>
      isBlank_of_isNumberChar (hnumber c (List.mem_of_mem_head? hc))
    have hnothing : Text.AreBlank [] := nofun
    have h := Text.trim_between hbetween ⟨hhead, hlast⟩ hnumberNe hnothing
    rwa [List.append_nil] at h
  -- the run of operator characters ends where the blanks or the number begin
  have hstop : ∀ c ∈ (between ++ number).head?, isOperatorChar c = false := by
    intro c hc
    rcases List.mem_append.mp (List.mem_of_mem_head? hc) with hc | hc
    · exact isOperatorChar_of_isBlank (hbetween c hc)
    · exact isOperatorChar_of_isNumberChar (hnumber c hc)
  have hbody : dropSubject (Text.trim (before ++ subject ++ gap ++ symbol.toList ++ between ++ number ++ behind)) =
      symbol.toList ++ (between ++ number) := by
    have hsplit : before ++ subject ++ gap ++ symbol.toList ++ between ++ number ++ behind =
        before ++ (subject ++ (gap ++ (symbol.toList ++ (between ++ number)))) ++ behind := by
      simp only [List.append_assoc]
    rw [hsplit]
    refine dropSubject_trim hbefore hsubject hgap hbehind (by simp [hnumberNe]) (fun c hc => ?_) fun c hc => hlast c ?_
    · obtain ⟨a, ops, hcons⟩ := List.exists_cons_of_ne_nil hne
      rw [hcons] at hc
      rw [← Option.some.inj hc]
      exact hops a (hcons ▸ List.mem_cons_self)
    · rwa [List.getLast?_append, List.getLast?_append, List.getLast?_eq_some_getLast hnumberNe, Option.some_or,
        Option.some_or, ← List.getLast?_eq_some_getLast hnumberNe] at hc
  have hempty : symbol.toList.isEmpty = false := by simpa using hne
  rw [Threshold.ofChars, hbody]
  simp only [Text.takeWhile_append hops hstop, Text.dropWhile_append hops hstop, hempty, Bool.false_eq_true, if_false,
    String.ofList_toList, Comparison.ofSymbol?_eq_some_iff.mpr hsymbol, htrim, hbound, hfinite, if_true]

/-- **The reader takes exactly the expressions.** -/
theorem ofChars_eq_ok_iff {cs : List Char} {t : Threshold} : ofChars cs = .ok t ↔ IsExpr cs t :=
  ⟨isExpr_of_ofChars, IsExpr.ofChars⟩

theorem ofExpr_eq_ok_iff {expr : String} {t : Threshold} : ofExpr expr = .ok t ↔ IsExpr expr.toList t := by
  rw [← ofChars_eq_ok_iff, ofExpr]
  split <;> simp_all

/-- The text of a threshold is an expression of it, if its number reads back. -/
theorem isExpr_text {t : Threshold} (hfinite : t.bound.isFinite = true)
    (hback : Number.ofText? t.bound.text = some t.bound) : IsExpr t.text.toList t := by
  have htext : t.text.toList = [] ++ [] ++ [] ++ t.operator.symbol.toList ++ [' '] ++ t.bound.text.toList ++ [] := by
    simp [text]
  rw [htext]
  have hspace : Text.AreBlank [' '] := by
    intro c hc
    rw [List.mem_singleton.mp hc]
    decide
  exact .intro nofun (by decide) nofun t.operator.symbol_mem hspace hback hfinite nofun

/-- **A text is read as a threshold exactly if it is an expression of it, and every other text is refused as an invalid
expression. So the text of a threshold reads back whenever the text of its number does.** -/
theorem expressions_read_exactly :
    (∀ expr t, ofExpr expr = .ok t ↔ IsExpr expr.toList t) ∧
      (∀ expr, (∀ t, ¬IsExpr expr.toList t) → ∃ defect, ofExpr expr = .error (.invalidExpression expr defect)) ∧
      ∀ t : Threshold, t.bound.isFinite = true → Number.ofText? t.bound.text = some t.bound →
        ofExpr t.text = .ok t := by
  refine ⟨fun _ _ => ofExpr_eq_ok_iff, fun expr hno => ?_, fun t hfinite hback =>
    ofExpr_eq_ok_iff.mpr (isExpr_text hfinite hback)⟩
  cases h : ofChars expr.toList with
  | ok t => exact absurd (ofChars_eq_ok_iff.mp h) (hno t)
  | error defect => exact ⟨defect, by rw [ofExpr, h]⟩

theorem expressions_read_exactly_aboveNinety :
    let t : Threshold := ⟨.greater, .ofNat 90⟩
    t.bound.isFinite = true ∧ Number.ofText? t.bound.text = some t.bound ∧ ofExpr t.text = .ok t := by
  have hfinite : (Number.ofNat 90).isFinite = true := by decide +kernel
  have hback : Number.ofText? (Number.ofNat 90).text = some (Number.ofNat 90) := by decide +kernel
  exact ⟨hfinite, hback, expressions_read_exactly.2.2 ⟨.greater, .ofNat 90⟩ hfinite hback⟩

/-- One name at most stands in front of the operator. -/
example : ofExpr "valuevalue > 1" = .error (.invalidExpression "valuevalue > 1" .missingOperator) := by rfl

/-- Operator characters with a blank between them are no symbol. -/
example : ofExpr "> = 1" = .error (.invalidExpression "> = 1" .notANumber) := by rfl

end Threshold

end Alerting
