import Alerting.Number.Reader
import Alerting.Proofs.Text.Decimal

/-!
# The characters of numbers

A text that is read as a number consists of digits, signs, points and letters only (`Number.ofChars?_chars`), so it has
no blanks in it, and no operators of thresholds.
-/

namespace Alerting

namespace Text

/-- Whether a character may occur in the text of a number. -/
def isNumberChar (c : Char) : Bool := isDigit c || c.isAlpha || c == '+' || c == '-' || c == '.'

theorem isNumberChar_of_isDigit {c : Char} (h : isDigit c = true) : isNumberChar c = true := by simp [isNumberChar, h]

/-- The letters are those of ASCII. -/
theorem isAlpha_eq (c : Char) :
    c.isAlpha = (decide (c.val ≥ 'A'.val ∧ c.val ≤ 'Z'.val) || (decide (c.val ≥ 'a'.val) && decide (c.val ≤ 'z'.val))) :=
  rfl

/-- Lowering the case makes no letter out of another character. -/
theorem isAlpha_of_toLower {c : Char} (h : c.toLower.isLower = true) : c.isAlpha = true := by
  unfold Char.toLower at h
  split at h
  · next hu => rw [isAlpha_eq, decide_eq_true hu, Bool.true_or]
  · exact Bool.or_eq_true_iff.mpr (.inr h)

theorem all_isDigit_spanDigits (cs : List Char) : ∀ c ∈ (spanDigits cs).1, isDigit c = true := fun c hc =>
  List.all_eq_true.mp List.all_takeWhile c hc

theorem spanDigits_append (cs : List Char) : (spanDigits cs).1 ++ (spanDigits cs).2 = cs :=
  List.takeWhile_append_dropWhile

end Text

namespace Number

/-- All characters may occur in the text of a number. -/
def AreNumberChars (cs : List Char) : Prop := ∀ c ∈ cs, Text.isNumberChar c = true

theorem AreNumberChars.cons {c : Char} {cs : List Char} (hc : Text.isNumberChar c = true) (h : AreNumberChars cs) :
    AreNumberChars (c :: cs) := fun _ hd => (List.mem_cons.mp hd).elim (fun e => e ▸ hc) (h _)

theorem AreNumberChars.append {a b : List Char} (ha : AreNumberChars a) (hb : AreNumberChars b) :
    AreNumberChars (a ++ b) := fun _ hc => (List.mem_append.mp hc).elim (ha _) (hb _)

theorem areNumberChars_of_digits {cs : List Char} (h : ∀ c ∈ cs, Text.isDigit c = true) : AreNumberChars cs :=
  fun c hc => Text.isNumberChar_of_isDigit (h c hc)

theorem readExponent?_chars {cs : List Char} {e : Int} (h : readExponent? cs = some e) : AreNumberChars cs := by
  cases cs with
  | nil => exact nofun
  | cons c cs =>
    simp only [readExponent?] at h
    split at h
    · next hc =>
      have hletter : Text.isNumberChar c = true := by
        rcases Bool.or_eq_true_iff.mp hc with hc | hc <;> rw [beq_iff_eq.mp hc] <;> decide
      refine .cons hletter ?_
      split at h
      · obtain ⟨n, hn, -⟩ := Option.map_eq_some_iff.mp h
        exact .cons (by decide) (areNumberChars_of_digits (Text.readNat?_eq_some_iff.mp hn).digits)
      · obtain ⟨n, hn, -⟩ := Option.map_eq_some_iff.mp h
        exact .cons (by decide) (areNumberChars_of_digits (Text.readNat?_eq_some_iff.mp hn).digits)
      · obtain ⟨n, hn, -⟩ := Option.map_eq_some_iff.mp h
        exact areNumberChars_of_digits (Text.readNat?_eq_some_iff.mp hn).digits
    · cases h

theorem readDecimal?_chars {negative : Bool} {cs : List Char} {x : Number} (h : readDecimal? negative cs = some x) :
    AreNumberChars cs := by
  have hwhole := areNumberChars_of_digits (Text.all_isDigit_spanDigits cs)
  unfold readDecimal? at h
  rw [← Text.spanDigits_append cs]
  refine hwhole.append ?_
  dsimp only at h
  split at h
  · next rest hrest =>
    split at h
    · cases h
    · obtain ⟨e, he, -⟩ := Option.map_eq_some_iff.mp h
      rw [hrest, ← Text.spanDigits_append rest]
      have hfraction := areNumberChars_of_digits (Text.all_isDigit_spanDigits rest)
      exact .cons (by decide) (hfraction.append (readExponent?_chars he))
  · split at h
    · cases h
    · obtain ⟨e, he, -⟩ := Option.map_eq_some_iff.mp h
      exact readExponent?_chars he

theorem readWord?_chars {cs : List Char} {x : Number} (h : readWord? cs = some x) : AreNumberChars cs := by
  have hlower : ∀ c ∈ cs.map Char.toLower, c.isLower = true := by
    unfold readWord? at h
    have key : ∀ s : String, String.ofList (cs.map Char.toLower) = s → s.toList.all Char.isLower = true →
        ∀ c ∈ cs.map Char.toLower, c.isLower = true := by
      rintro s rfl hs
      rw [String.toList_ofList] at hs
      exact List.all_eq_true.mp hs
    split at h
    · next hw => exact key _ hw (by decide)
    · next hw => exact key _ hw (by decide)
    · next hw => exact key _ hw (by decide)
    · cases h
  intro c hc
  simp [Text.isNumberChar, Text.isAlpha_of_toLower (hlower _ (List.mem_map_of_mem hc))]

theorem readUnsigned?_chars {negative : Bool} {cs : List Char} {x : Number} (h : readUnsigned? negative cs = some x) :
    AreNumberChars cs := by
  unfold readUnsigned? at h
  split at h
  · next hd => exact readDecimal?_chars hd
  · obtain ⟨y, hy, -⟩ := Option.map_eq_some_iff.mp h
    exact readWord?_chars hy

/-- **A number is read from digits, signs, points and letters.** -/
theorem ofChars?_chars {cs : List Char} {x : Number} (h : ofChars? cs = some x) : AreNumberChars cs := by
  unfold ofChars? at h
  split at h
  · exact .cons (by decide) (readUnsigned?_chars h)
  · exact .cons (by decide) (readUnsigned?_chars h)
  · exact readUnsigned?_chars h

/-- Nothing is not the text of a number. -/
theorem ofChars?_nil : ofChars? [] = none := by decide

end Number

end Alerting
