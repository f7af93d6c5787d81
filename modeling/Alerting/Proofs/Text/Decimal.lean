import Alerting.Proofs.Text.Spans
import Alerting.Text.Digits

/-!
# Decimal texts of natural numbers

The decimal digits of a number are read back as the number (`natOfDigits_decimal`). They are digits, there is at least
one of them, and the first one is zero for zero alone (`head?_decimal`), so that a reader that admits no leading zero
takes them.
-/

namespace Alerting.Text

theorem decimal_eq (n : Nat) : decimal n = Nat.toDigits 10 n := Nat.toList_repr

theorem decimal_ne_nil (n : Nat) : decimal n ≠ [] := decimal_eq n ▸ Nat.toDigits_ne_nil

theorem isDigit_of_mem_decimal {n : Nat} {c : Char} (h : c ∈ decimal n) : isDigit c = true :=
  have hc : c.isDigit = true := Nat.isDigit_of_mem_toDigits (by decide) (by decide) (decimal_eq n ▸ h)
  hc

/-- **The digits of a number are read back as the number.** -/
theorem natOfDigits_decimal (n : Nat) : natOfDigits 0 (decimal n) = n := by
  have h : Nat.ofDigitChars 10 (Nat.toDigits 10 n) 0 = n := Nat.ofDigitChars_ten_toDigits
  rwa [← decimal_eq, Nat.ofDigitChars_eq_foldl] at h

/-- The digits of a number of more than one digit begin with those of its tenth. -/
theorem decimal_of_ten_le {n : Nat} (h : 10 ≤ n) : decimal n = decimal (n / 10) ++ [(n % 10).digitChar] := by
  rw [decimal_eq, decimal_eq, Nat.toDigits_of_base_le (by decide) h]

/-- Only zero is written with a zero in front. -/
theorem head?_decimal {n : Nat} (h : (decimal n).head? = some '0') : n = 0 := by
  induction n using Nat.strongRecOn with
  | ind n ih =>
    by_cases hn : n < 10
    · rw [decimal_eq, Nat.toDigits_of_lt_base hn] at h
      exact Nat.digitChar_eq_zero.mp (Option.some.inj h)
    · rw [decimal_of_ten_le (by omega), List.head?_append,
        List.head?_eq_some_head (decimal_ne_nil _), Option.some_or, ← List.head?_eq_some_head] at h
      have := ih (n / 10) (by omega) h
      omega

/-! ## Numerals -/

/-- The text is a numeral of the number: at least one digit, and leading zeros count for nothing. -/
structure Denotes (cs : List Char) (n : Nat) : Prop where
  ne_nil : cs ≠ []
  digits : ∀ c ∈ cs, isDigit c = true
  value : natOfDigits 0 cs = n

theorem denotes_decimal (n : Nat) : Denotes (decimal n) n :=
  ⟨decimal_ne_nil n, fun _ => isDigit_of_mem_decimal, natOfDigits_decimal n⟩

section Numerals

variable {cs : List Char} {bound n : Nat}

/-- **A numeral is read as its number, and nothing else is read.** -/
theorem readNat?_eq_some_iff : readNat? cs = some n ↔ Denotes cs n := by
  have hguard : (!cs.isEmpty && cs.all isDigit) = true ↔ cs ≠ [] ∧ ∀ c ∈ cs, isDigit c = true := by
    rw [Bool.and_eq_true, Bool.not_eq_true', List.isEmpty_eq_false_iff, List.all_eq_true]
  unfold readNat?
  constructor
  · intro h
    split at h
    · next hg =>
      obtain ⟨hne, hdigits⟩ := hguard.mp hg
      exact ⟨hne, hdigits, Option.some.inj h⟩
    · cases h
  · intro h
    rw [if_pos (hguard.mpr ⟨h.ne_nil, h.digits⟩), h.value]

/-- A plus sign in front of a numeral is passed over. -/
theorem readBelow?_plus (h : Denotes cs n) : readBelow? bound ('+' :: cs) = (some n).filter (· < bound) := by
  rw [← readNat?_eq_some_iff.mpr h]
  rfl

theorem readBelow?_of_denotes (h : Denotes cs n) : readBelow? bound cs = (some n).filter (· < bound) := by
  rw [← readNat?_eq_some_iff.mpr h]
  unfold readBelow?
  split
  · have hplus : isDigit '+' = true := h.digits '+' List.mem_cons_self
    exact nomatch hplus
  · rfl

/-- What is read below a bound is a numeral, or one with a plus sign in front of it. -/
theorem denotes_of_readBelow? (h : readBelow? bound cs = some n) : ∃ ds, (cs = ds ∨ cs = '+' :: ds) ∧ Denotes ds n := by
  have hnumeral := readNat?_eq_some_iff.mp (Option.filter_eq_some_iff.mp h).1
  split at hnumeral
  · exact ⟨_, .inr rfl, hnumeral⟩
  · exact ⟨cs, .inl rfl, hnumeral⟩

end Numerals

/-! ## Digits in front of other text -/

/-- What follows a text and does not begin with a digit is cut off with what follows the text's digits. -/
theorem spanDigits_append_rest {rest : List Char} (h : ∀ c ∈ rest.head?, isDigit c = false) (cs : List Char) :
    spanDigits (cs ++ rest) = ((spanDigits cs).1, (spanDigits cs).2 ++ rest) := by
  induction cs with
  | nil =>
    cases rest with
    | nil => rfl
    | cons c rest => simp [spanDigits, h c rfl]
  | cons c cs ih =>
    simp only [spanDigits, Prod.mk.injEq] at ih
    cases hc : isDigit c <;> simp [spanDigits, hc, ih.1, ih.2]

/-- The digits of a number are cut off before anything but a digit. -/
theorem spanDigits_decimal (n : Nat) {rest : List Char} (h : ∀ c ∈ rest.head?, isDigit c = false) :
    spanDigits (decimal n ++ rest) = (decimal n, rest) := by
  have hdigits : ∀ c ∈ decimal n, isDigit c = true := fun _ => isDigit_of_mem_decimal
  rw [spanDigits, takeWhile_append hdigits h, dropWhile_append hdigits h]

end Alerting.Text
