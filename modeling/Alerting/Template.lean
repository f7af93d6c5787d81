import Alerting.Table
import Alerting.Text.Blank
import Alerting.Text.Digits

/-!
# Annotation templates

A placeholder names a label between double braces: a dollar sign, perhaps `labels.`, and the name, with blanks
inside the braces. Rendering replaces every placeholder by the value of its label, or by nothing if there is no
such label, and leaves all other text as it is. Values are not looked at again.
-/

namespace Alerting.Template

def isNameStart (c : Char) : Bool := ('a' ≤ c && c ≤ 'z') || ('A' ≤ c && c ≤ 'Z') || c == '_'

def isNameChar (c : Char) : Bool := isNameStart c || Text.isDigit c

/-- A name and the closing braces. -/
def readName? (cs : List Char) : Option (List Char × List Char) :=
  if (cs.head?.map isNameStart).getD false then
    match Text.trimStart (cs.dropWhile isNameChar) with
    | '}' :: '}' :: rest => some (cs.takeWhile isNameChar, rest)
    | _ => none
  else none

/-- What follows the dollar sign of a placeholder. -/
def readReference? (cs : List Char) : Option (List Char × List Char) :=
  match (Text.dropLead? "labels.".toList cs).bind readName? with
  | some r => some r
  | none => readName? cs

/-- A placeholder at the beginning of a text: its name and the text behind it. -/
def placeholder? : List Char → Option (List Char × List Char)
  | '{' :: '{' :: cs =>
    match Text.trimStart cs with
    | '$' :: cs => readReference? cs
    | _ => none
  | _ => none

/-- Dropping leading characters does not make a text longer. -/
theorem length_dropWhile_le (p : Char → Bool) (cs : List Char) : (cs.dropWhile p).length ≤ cs.length :=
  (List.dropWhile_suffix p).length_le

/-- The text behind a name is shorter than the text. -/
theorem readName?_length {cs name rest : List Char} (h : readName? cs = some (name, rest)) :
    rest.length < cs.length := by
  unfold readName? at h
  split at h
  · split at h
    · next hb =>
      have h₁ := length_dropWhile_le Text.isBlank (cs.dropWhile isNameChar)
      have h₂ := length_dropWhile_le isNameChar cs
      simp only [Text.trimStart] at hb
      rw [hb] at h₁
      simp only [Option.some.injEq, Prod.mk.injEq] at h
      simp only [List.length_cons] at h₁
      rw [← h.2]; omega
    · cases h
  · cases h

/-- The text behind a reference is shorter than the text. -/
theorem readReference?_length {cs name rest : List Char} (h : readReference? cs = some (name, rest)) :
    rest.length < cs.length := by
  unfold readReference? at h
  split at h
  · next hr =>
    obtain ⟨ds, hd, hn⟩ := Option.bind_eq_some_iff.mp hr
    rw [Option.some.injEq] at h
    subst h
    have h₁ := readName?_length hn
    rw [Text.dropLead?_eq_some_iff.mp hd, List.length_append]
    omega
  · exact readName?_length h

/-- The text behind a placeholder is shorter than the text. -/
theorem placeholder?_length {cs name rest : List Char} (h : placeholder? cs = some (name, rest)) :
    rest.length < cs.length := by
  unfold placeholder? at h
  split at h
  · next cs' =>
    split at h
    · next hb =>
      have h₁ := length_dropWhile_le Text.isBlank cs'
      simp only [Text.trimStart] at hb
      rw [hb] at h₁
      have h₂ := readReference?_length h
      simp only [List.length_cons] at h₁ ⊢
      omega
    · cases h
  · cases h

/-- The value of a label, or nothing. -/
def valueOf (labels : Table String) (name : List Char) : List Char :=
  ((labels.get? (String.ofList name)).getD "").toList

/-- A text with its placeholders replaced. -/
def renderChars (labels : Table String) (cs : List Char) : List Char :=
  match _h : placeholder? cs with
  | some (name, rest) => valueOf labels name ++ renderChars labels rest
  | none =>
    match cs with
    | [] => []
    | c :: cs => c :: renderChars labels cs
termination_by cs.length
decreasing_by
  · exact placeholder?_length _h
  · simp

/-- A template with its placeholders replaced. -/
def render (template : String) (labels : Table String) : String :=
  String.ofList (renderChars labels template.toList)

end Alerting.Template
