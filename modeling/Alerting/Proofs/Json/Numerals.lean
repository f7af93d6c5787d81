import Alerting.Json.Reader
import Alerting.Json.Writer
import Alerting.Proofs.Text.Decimal
import Mathlib.Algebra.Group.Int.Defs
import Mathlib.Algebra.Group.Nat.Defs

/-!
# Numerals in JSON texts

A number is written with digits, minus signs, a point and the letter of an exponent (`areNumeralChars_int`,
`areNumeralChars_floatText`). A numeral is read up to whatever delimits it, and what follows does not change its value
(`readNumber?_append`, `readValue?_numeral`). An integer of 64 bits is read as itself (`readNumber?_int`).
-/

namespace Alerting.Json

/-- The text ends, or goes on with what may follow a value in a list or an object. -/
def IsDelimited (rest : List Char) : Prop := ∀ c ∈ rest.head?, c = ',' ∨ c = ']' ∨ c = '\x7d'

theorem isDelimited_nil : IsDelimited [] := nofun

theorem IsDelimited.head?_ne {rest : List Char} (h : IsDelimited rest) {p : Char → Bool}
    (hp : p ',' = false ∧ p ']' = false ∧ p '\x7d' = false) : ∀ c ∈ rest.head?, p c = false := fun c hc => by
  rcases h c hc with rfl | rfl | rfl
  · exact hp.1
  · exact hp.2.1
  · exact hp.2.2

theorem IsDelimited.spanDigits {rest : List Char} (h : IsDelimited rest) (cs : List Char) :
    Text.spanDigits (cs ++ rest) = ((Text.spanDigits cs).1, (Text.spanDigits cs).2 ++ rest) :=
  Text.spanDigits_append_rest (h.head?_ne (by decide)) cs

theorem forall_mem_head?_cons {p : Char → Prop} {c : Char} (h : p c) (tail : List Char) :
    ∀ d ∈ (c :: tail).head?, p d := by
  rintro d hd
  cases hd
  exact h

variable {cs r rest : List Char} {negative : Bool} {v : Json}

/-- Digits are read up to whatever delimits them. -/
theorem readDigits?_append {ds : List Char} (hr : IsDelimited rest) (h : readDigits? cs = some (ds, r)) :
    readDigits? (cs ++ rest) = some (ds, r ++ rest) ∧ r ⊆ cs := by
  unfold readDigits? at h ⊢
  rw [hr.spanDigits]
  dsimp only at h ⊢
  split at h
  · cases h
  · next hds =>
    cases h
    exact ⟨if_neg hds, (List.dropWhile_sublist _).subset⟩

/-! ### Fractions and exponents -/

theorem readFraction?_of_ne {cs : List Char} (h : ∀ c ∈ cs.head?, (c == '.') = false) :
    readFraction? cs = some (none, cs) := by
  unfold readFraction?
  split
  · exact absurd (h '.' rfl) (by decide)
  · rfl

theorem readFraction?_append {f : Option (List Char)} (hr : IsDelimited rest)
    (h : readFraction? cs = some (f, r)) : readFraction? (cs ++ rest) = some (f, r ++ rest) ∧ r ⊆ cs := by
  cases cs with
  | nil =>
    cases h
    exact ⟨readFraction?_of_ne (hr.head?_ne (by decide)), List.Subset.refl _⟩
  | cons c cs =>
    by_cases hc : c = '.'
    · subst hc
      obtain ⟨⟨ds, r⟩, hds, heq⟩ := Option.map_eq_some_iff.mp h
      cases heq
      obtain ⟨hds', hsub⟩ := readDigits?_append hr hds
      refine ⟨?_, List.subset_cons_of_subset _ hsub⟩
      rw [List.cons_append, readFraction?, hds']
      rfl
    · have hne := forall_mem_head?_cons (p := fun d => (d == '.') = false) (beq_eq_false_iff_ne.mpr hc)
      rw [readFraction?_of_ne (hne cs)] at h
      cases h
      exact ⟨readFraction?_of_ne (hne _), List.Subset.refl _⟩

theorem takeSign_append (hcs : cs ≠ []) (rest : List Char) :
    takeSign (cs ++ rest) = ((takeSign cs).1, (takeSign cs).2 ++ rest) ∧ (takeSign cs).2 ⊆ cs := by
  obtain ⟨c, cs, rfl⟩ := List.exists_cons_of_ne_nil hcs
  by_cases hplus : c = '+'
  · subst hplus
    exact ⟨rfl, List.subset_cons_self _ _⟩
  by_cases hminus : c = '-'
  · subst hminus
    exact ⟨rfl, List.subset_cons_self _ _⟩
  · have hnone : ∀ tail : List Char, takeSign (c :: tail) = (1, c :: tail) := by
      intro tail
      unfold takeSign
      split
      · next heq => exact absurd (List.cons.inj heq).1 hplus
      · next heq => exact absurd (List.cons.inj heq).1 hminus
      · rfl
    rw [List.cons_append, hnone, hnone]
    exact ⟨rfl, List.Subset.refl _⟩

theorem readExponent?_of_ne {cs : List Char} (h : ∀ c ∈ cs.head?, (c == 'e' || c == 'E') = false) :
    readExponent? cs = some (none, cs) := by
  unfold readExponent?
  split
  · next c cs => rw [if_neg (by rw [h c rfl]; decide)]
  · rfl

theorem readExponent?_letter {c : Char} (h : (c == 'e' || c == 'E') = true) (cs : List Char) :
    readExponent? (c :: cs) = (readDigits? (takeSign cs).2).map fun (ds, rest) =>
      (some ((takeSign cs).1 * Text.natOfDigits 0 ds), rest) := if_pos h

theorem readExponent?_append {e : Option Int} (hr : IsDelimited rest) (h : readExponent? cs = some (e, r)) :
    readExponent? (cs ++ rest) = some (e, r ++ rest) ∧ r ⊆ cs := by
  cases cs with
  | nil =>
    cases h
    exact ⟨readExponent?_of_ne (hr.head?_ne (by decide)), List.Subset.refl _⟩
  | cons c cs =>
    cases hc : c == 'e' || c == 'E' with
    | false =>
      have hne := forall_mem_head?_cons (p := fun d => (d == 'e' || d == 'E') = false) hc
      rw [readExponent?_of_ne (hne cs)] at h
      cases h
      exact ⟨readExponent?_of_ne (hne _), List.Subset.refl _⟩
    | true =>
      rw [readExponent?_letter hc] at h
      obtain ⟨⟨ds, r⟩, hds, heq⟩ := Option.map_eq_some_iff.mp h
      cases heq
      have hcs : cs ≠ [] := by
        rintro rfl
        cases hds
      obtain ⟨hds', hsub⟩ := readDigits?_append hr hds
      obtain ⟨hsign, hsub'⟩ := takeSign_append hcs rest
      refine ⟨?_, List.subset_cons_of_subset _ (List.Subset.trans hsub hsub')⟩
      rw [List.cons_append, readExponent?_letter hc, hsign, hds']
      rfl

/-! ### Whole numerals -/

/-- A numeral behind its sign. -/
def readMagnitude? (negative : Bool) (cs : List Char) : Option (Json × List Char) :=
  let whole := (Text.spanDigits cs).1
  if whole.isEmpty || (whole.head? == some '0' && 1 < whole.length) then none
  else
    (readFraction? (Text.spanDigits cs).2).bind fun fraction =>
      (readExponent? fraction.2).bind fun exponent =>
        some (ofNumeral negative whole fraction.1 exponent.1, exponent.2)

theorem readNumber?_minus (cs : List Char) : readNumber? ('-' :: cs) = readMagnitude? true cs := rfl

theorem readNumber?_of_ne (h : ∀ c ∈ cs.head?, c ≠ '-') : readNumber? cs = readMagnitude? false cs := by
  cases cs with
  | nil => rfl
  | cons c cs =>
    have hc : c ≠ '-' := h c rfl
    unfold readNumber?
    split
    next negative tail heq =>
      split at heq
      · next hcs => exact absurd (List.cons.inj hcs).1 hc
      · cases heq
        rfl

theorem readMagnitude?_append (hr : IsDelimited rest) (h : readMagnitude? negative cs = some (v, r)) :
    readMagnitude? negative (cs ++ rest) = some (v, r ++ rest) ∧ r ⊆ cs := by
  unfold readMagnitude? at h ⊢
  rw [hr.spanDigits]
  dsimp only at h ⊢
  split at h
  · cases h
  · next hwhole =>
    obtain ⟨⟨f, afterFraction⟩, hf, h⟩ := Option.bind_eq_some_iff.mp h
    obtain ⟨⟨e, afterExponent⟩, he, h⟩ := Option.bind_eq_some_iff.mp h
    cases h
    obtain ⟨hf', hsub⟩ := readFraction?_append hr hf
    obtain ⟨he', hsub'⟩ := readExponent?_append hr he
    refine ⟨?_, List.Subset.trans (List.Subset.trans hsub' hsub) (List.dropWhile_sublist _).subset⟩
    rw [if_neg hwhole, hf', Option.bind_some, he', Option.bind_some]

/-- **What follows a numeral does not change how it is read.** -/
theorem readNumber?_append (hr : IsDelimited rest) (h : readNumber? cs = some (v, r)) :
    readNumber? (cs ++ rest) = some (v, r ++ rest) ∧ r ⊆ cs := by
  cases cs with
  | nil => cases h
  | cons c cs =>
    by_cases hc : c = '-'
    · rw [hc, readNumber?_minus] at h
      have htail := readMagnitude?_append hr h
      rw [hc, List.cons_append, readNumber?_minus]
      exact ⟨htail.1, List.subset_cons_of_subset _ htail.2⟩
    · have hne := forall_mem_head?_cons (p := (· ≠ '-')) hc
      rw [readNumber?_of_ne (hne _)] at h
      rw [List.cons_append, readNumber?_of_ne (hne _), ← List.cons_append]
      exact readMagnitude?_append hr h

/-! ### The characters of numerals -/

/-- Whether a character occurs in the text of a number. -/
def isNumeralChar (c : Char) : Bool := Text.isDigit c || c == '-' || c == '.' || c == 'e'

def AreNumeralChars (cs : List Char) : Prop := ∀ c ∈ cs, isNumeralChar c = true

theorem AreNumeralChars.of_subset (h : AreNumeralChars cs) (hr : r ⊆ cs) : AreNumeralChars r := fun c hc => h c (hr hc)

theorem AreNumeralChars.head_ne {c : Char} (h : AreNumeralChars (c :: cs)) {d : Char} (hd : isNumeralChar d = false) :
    c ≠ d := fun hc => by
  have := h c List.mem_cons_self
  rw [hc, hd] at this
  cases this

theorem AreNumeralChars.append {a b : List Char} (ha : AreNumeralChars a) (hb : AreNumeralChars b) :
    AreNumeralChars (a ++ b) := fun c hc => (List.mem_append.mp hc).elim (ha c) (hb c)

theorem AreNumeralChars.cons {c : Char} (hc : isNumeralChar c = true) (h : AreNumeralChars cs) :
    AreNumeralChars (c :: cs) := fun _ hd => (List.mem_cons.mp hd).elim (fun e => e ▸ hc) (h _)

theorem areNumeralChars_zeros (n : Nat) : AreNumeralChars (List.replicate n '0') := fun _ hc =>
  (List.mem_replicate.mp hc).2 ▸ rfl

theorem areNumeralChars_decimal (n : Nat) : AreNumeralChars (Text.decimal n) := fun c hc => by
  simp only [isNumeralChar, Text.isDigit_of_mem_decimal hc, Bool.true_or]

theorem skipSpace_cons {c : Char} (h : c ≠ ' ' ∧ c ≠ '\t' ∧ c ≠ '\n' ∧ c ≠ '\r') (cs : List Char) :
    skipSpace (c :: cs) = c :: cs := by simp [skipSpace, h]

theorem readValue?_cons_of_ne {c : Char} (hspace : skipSpace (c :: cs) = c :: cs)
    (h : c ≠ '"' ∧ c ≠ '[' ∧ c ≠ '\x7b' ∧ c ≠ 'n' ∧ c ≠ 't' ∧ c ≠ 'f') (fuel : Nat) :
    readValue? (fuel + 1) (c :: cs) = readNumber? (c :: cs) := by
  obtain ⟨h₁, h₂, h₃, h₄, h₅, h₆⟩ := h
  rw [readValue?, hspace]
  split
  all_goals first | rfl | (next heq => exact absurd (List.cons.inj heq).1 (by assumption))

/-- A text of such characters is read as a numeral. -/
theorem readValue?_eq_readNumber? (hcs : AreNumeralChars cs) (hne : cs ≠ []) (fuel : Nat) (rest : List Char) :
    readValue? (fuel + 1) (cs ++ rest) = readNumber? (cs ++ rest) := by
  obtain ⟨c, cs, rfl⟩ := List.exists_cons_of_ne_nil hne
  have hspace : skipSpace (c :: (cs ++ rest)) = c :: (cs ++ rest) := by
    refine skipSpace_cons ⟨?_, ?_, ?_, ?_⟩ _ <;> exact hcs.head_ne (by decide)
  refine readValue?_cons_of_ne hspace ⟨?_, ?_, ?_, ?_, ?_, ?_⟩ fuel <;> exact hcs.head_ne (by decide)

/-- A numeral is a value before any delimiter. -/
theorem readValue?_numeral (hcs : AreNumeralChars cs) (h : readNumber? cs = some (v, [])) (hr : IsDelimited rest)
    (fuel : Nat) : readValue? (fuel + 1) (cs ++ rest) = some (v, rest) := by
  have hne : cs ≠ [] := by
    rintro rfl
    cases h
  rw [readValue?_eq_readNumber? hcs hne]
  exact (readNumber?_append hr h).1

/-! ### Integers -/

theorem readMagnitude?_decimal (negative : Bool) (n : Nat) :
    readMagnitude? negative (Text.decimal n) = some (ofNumeral negative (Text.decimal n) none none, []) := by
  have hspan : Text.spanDigits (Text.decimal n ++ []) = (Text.decimal n, []) := Text.spanDigits_decimal n nofun
  rw [List.append_nil] at hspan
  have hempty : (Text.decimal n).isEmpty = false := List.isEmpty_eq_false_iff.mpr (Text.decimal_ne_nil n)
  have hzero : ((Text.decimal n).head? == some '0' && decide (1 < (Text.decimal n).length)) = false := by
    rw [Bool.and_eq_false_iff]
    by_cases h : (Text.decimal n).head? = some '0'
    · rw [Text.head?_decimal h]
      exact .inr (by decide)
    · exact .inl (beq_eq_false_iff_ne.mpr h)
  unfold readMagnitude?
  rw [hspan]
  dsimp only
  rw [hzero, hempty]
  rfl

theorem ofNumeral_decimal {n : Nat} (h : n < 2 ^ 64) : ofNumeral false (Text.decimal n) none none = int n := by
  have hn : n < Nat.pow 2 64 := h
  simp [ofNumeral, Text.natOfDigits_decimal, hn]

theorem ofNumeral_negative {n : Nat} (hpos : 0 < n) (h : n ≤ 2 ^ 63) :
    ofNumeral true (Text.decimal n) none none = int (-n) := by
  have hn : n ≤ Nat.pow 2 63 := h
  simp [ofNumeral, Text.natOfDigits_decimal, hn, hpos]

theorem toList_render_int (n : Int) :
    (render (int n)).toList = if n < 0 then '-' :: Text.decimal n.natAbs else Text.decimal n.natAbs := by
  rw [render]
  split
  · rw [String.toList_append]
    rfl
  · rfl

theorem readNumber?_int {n : Int} (hlow : -2 ^ 63 ≤ n) (hhigh : n < 2 ^ 64) :
    readNumber? (render (int n)).toList = some (int n, []) := by
  rw [toList_render_int]
  split
  · next hneg =>
    rw [readNumber?_minus, readMagnitude?_decimal, ofNumeral_negative (by omega) (by omega)]
    congr 3
    omega
  · next hneg =>
    have hminus : ∀ c ∈ (Text.decimal n.natAbs).head?, c ≠ '-' := by
      rintro c hc rfl
      have := Text.isDigit_of_mem_decimal (List.mem_of_mem_head? hc)
      cases this
    rw [readNumber?_of_ne hminus, readMagnitude?_decimal, ofNumeral_decimal (by omega)]
    congr 3
    omega

theorem areNumeralChars_int (n : Int) : AreNumeralChars (render (int n)).toList := by
  rw [toList_render_int]
  split
  · exact .cons rfl (areNumeralChars_decimal _)
  · exact areNumeralChars_decimal _

/-! ### Other numbers -/

theorem areNumeralChars_decimalText {ds : List Char} (h : AreNumeralChars ds) (point : Int) :
    AreNumeralChars (decimalText ds point) := by
  have htake (n : Nat) : AreNumeralChars (ds.take n) := h.of_subset (List.take_subset n ds)
  have hdrop (n : Nat) : AreNumeralChars (ds.drop n) := h.of_subset (List.drop_subset n ds)
  have hnil : AreNumeralChars [] := nofun
  unfold decimalText
  dsimp only
  split
  · split
    · exact (h.append (areNumeralChars_zeros _)).append (.cons rfl (.cons rfl hnil))
    · exact (htake _).append (.cons rfl (hdrop _))
  · split
    · exact .cons rfl (.cons rfl ((areNumeralChars_zeros _).append h))
    · refine ((htake 1).append ?_).append (.cons rfl (.append ?_ (areNumeralChars_decimal _)))
      · split
        · exact hnil
        · exact .cons rfl (hdrop 1)
      · split
        · exact .cons rfl hnil
        · exact hnil

theorem areNumeralChars_floatText (x : Number) : AreNumeralChars (floatText x).toList := by
  have htrim (n : Nat) : AreNumeralChars (Number.trimZeros (Text.decimal n)) :=
    (areNumeralChars_decimal n).of_subset fun c hc =>
      List.mem_reverse.mp ((List.dropWhile_sublist _).subset (List.mem_reverse.mp hc))
  have hmagnitude (m : List Char) (hm : AreNumeralChars m) :
      AreNumeralChars (if x.isNegative then '-' :: m else m) := by
    split
    · exact .cons rfl hm
    · exact hm
  rw [floatText, String.toList_ofList]
  refine hmagnitude _ ?_
  split
  · exact .cons rfl (.cons rfl (.cons rfl nofun))
  · exact areNumeralChars_decimalText (htrim _) _

/-- A text of such characters that denotes a value is a numeral from end to end. -/
theorem readNumber?_of_parse? {s : String} (hs : AreNumeralChars s.toList) (h : parse? s = some v) :
    readNumber? s.toList = some (v, []) := by
  have hne : s.toList ≠ [] := by
    intro hnil
    rw [parse?, hnil] at h
    cases h
  have hvalue := readValue?_eq_readNumber? hs hne (2 * s.toList.length) []
  rw [List.append_nil] at hvalue
  unfold parse? at h
  dsimp only at h
  rw [hvalue] at h
  split at h
  · next w r hr =>
    have hsub := (readNumber?_append isDelimited_nil hr).2
    split at h
    · next hspace =>
      cases h
      cases r with
      | nil => exact hr
      | cons c r =>
        have hc : AreNumeralChars (c :: r) := hs.of_subset hsub
        rw [skipSpace_cons ⟨hc.head_ne (by decide), hc.head_ne (by decide), hc.head_ne (by decide),
          hc.head_ne (by decide)⟩] at hspace
        cases hspace
    · cases h
  · cases h

end Alerting.Json
