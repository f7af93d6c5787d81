import Alerting.Proofs.Text.Spans
import Alerting.Template
import Mathlib.Data.List.Chain

/-!
# Templates in segments

A template is put together from placeholders and from literal texts between them (`Segment`). The reader takes exactly
the placeholders (`placeholder?_eq_some_iff`): a name ends where neither a blank nor a brace goes on with it, and
`labels` is a name of its own only where no dot follows.

Rendering goes through a template from its start, and finds every segment where it was put
(`renderChars_flatMap`): no placeholder begins in a literal without two opening braces side by side, and where a
literal ends in a brace and a placeholder follows, the two opening braces of the placeholder are the last two of three.
The value of a label takes no part in that: rendering goes on behind the placeholder.
-/

namespace Alerting.Template

/-! ## Placeholders -/

/-- A letter or an underscore, and then letters, digits and underscores. -/
def IsName (cs : List Char) : Prop := ∃ c rest, cs = c :: rest ∧ isNameStart c = true ∧ ∀ d ∈ rest, isNameChar d = true

/-- A placeholder as it is written between its braces: blanks, the dollar sign, perhaps `labels.`, the name, blanks. -/
structure Placeholder where
  before : List Char
  /-- Whether `labels.` stands in front of the name. -/
  long : Bool
  name : List Char
  behind : List Char
  blank_before : Text.AreBlank before
  isName : IsName name
  blank_behind : Text.AreBlank behind

/-- What stands between the dollar sign and the name. -/
def lead (long : Bool) : List Char := if long then "labels.".toList else []

/-- The text of a placeholder. -/
def Placeholder.text (p : Placeholder) : List Char :=
  '{' :: '{' :: (p.before ++ '$' :: (lead p.long ++ (p.name ++ (p.behind ++ ['}', '}']))))

/-! ### Kinds of characters -/

theorem isNameChar_of_isNameStart {c : Char} (h : isNameStart c = true) : isNameChar c = true := by
  rw [isNameChar, h, Bool.true_or]

theorem isNameChar_iff {c : Char} : isNameChar c = true ↔ (48 ≤ c.toNat ∧ c.toNat ≤ 57) ∨
    (65 ≤ c.toNat ∧ c.toNat ≤ 90) ∨ (97 ≤ c.toNat ∧ c.toNat ≤ 122) ∨ c.toNat = 95 := by
  have heq : c = '_' ↔ c.toNat = 95 := ⟨congrArg _, fun h => Char.toNat_inj.mp h⟩
  simp only [isNameChar, isNameStart, Text.isDigit, Bool.or_eq_true, Bool.and_eq_true, decide_eq_true_eq, beq_iff_eq,
    heq, Char.le_def, UInt32.le_iff_toNat_le]
  change ((97 ≤ c.toNat ∧ c.toNat ≤ 122 ∨ 65 ≤ c.toNat ∧ c.toNat ≤ 90) ∨ c.toNat = 95) ∨
    48 ≤ c.toNat ∧ c.toNat ≤ 57 ↔ _
  omega

/-- No blank belongs to a name. -/
theorem isNameChar_of_isBlank {c : Char} (h : Text.isBlank c = true) : isNameChar c = false := by
  refine Bool.eq_false_iff.mpr fun hname => ?_
  have hname' := isNameChar_iff.mp hname
  simp only [Text.isBlank, Bool.or_eq_true, Bool.and_eq_true, decide_eq_true_eq, beq_iff_eq] at h
  omega

/-! ### Reading -/

section Reading

variable {cs name rest : List Char}

/-- A name is read with blanks and the closing braces behind it. -/
theorem readName?_eq_some_iff :
    readName? cs = some (name, rest) ↔
      IsName name ∧ ∃ behind, Text.AreBlank behind ∧ cs = name ++ (behind ++ '}' :: '}' :: rest) := by
  constructor
  · intro h
    unfold readName? at h
    split at h
    · next hstart =>
      split at h
      · next hclosed =>
        cases h
        obtain ⟨behind, hbehind, hdrop⟩ := Text.exists_trimStart (cs.dropWhile isNameChar)
        rw [hclosed] at hdrop
        refine ⟨?_, behind, hbehind, ?_⟩
        · cases cs with
          | nil => cases hstart
          | cons c cs =>
            have hc : isNameStart c = true := hstart
            rw [List.takeWhile_cons_of_pos (isNameChar_of_isNameStart hc)]
            exact ⟨c, _, rfl, hc, fun _ => Text.of_mem_takeWhile⟩
        · rw [← hdrop, List.takeWhile_append_dropWhile]
      · cases h
    · cases h
  · rintro ⟨⟨c, tail, rfl, hc, htail⟩, behind, hbehind, rfl⟩
    have hname : ∀ d ∈ c :: tail, isNameChar d = true := by
      intro d hd
      rcases List.mem_cons.mp hd with rfl | hd
      · exact isNameChar_of_isNameStart hc
      · exact htail d hd
    -- the name ends at the first blank or, without blanks, at the closing braces
    have hend : ∀ d ∈ (behind ++ '}' :: '}' :: rest).head?, isNameChar d = false := by
      intro d hd
      cases behind with
      | nil =>
        cases hd
        decide
      | cons b behind =>
        cases hd
        exact isNameChar_of_isBlank (hbehind _ List.mem_cons_self)
    have hbrace : ∀ d ∈ ('}' :: '}' :: rest).head?, Text.isBlank d = false := by
      intro d hd
      cases hd
      decide
    have hstart : (((c :: tail) ++ (behind ++ '}' :: '}' :: rest)).head?.map isNameStart).getD false = true := hc
    rw [readName?, if_pos hstart, Text.dropWhile_append hname hend, Text.takeWhile_append hname hend,
      Text.trimStart_append hbehind hbrace]
    rfl

/-- Behind `labels.` there is no name of its own that starts where it does. -/
theorem readName?_lead (cs : List Char) : readName? ("labels.".toList ++ cs) = none := rfl

/-- A reference is a name, with or without `labels.` in front of it. -/
theorem readReference?_eq_some_iff {r : List Char × List Char} :
    readReference? cs = some r ↔ ∃ long ds, cs = lead long ++ ds ∧ readName? ds = some r := by
  unfold readReference?
  constructor
  · intro h
    split at h
    · next hlong =>
      cases h
      obtain ⟨ds, hdrop, hname⟩ := Option.bind_eq_some_iff.mp hlong
      exact ⟨true, ds, Text.dropLead?_eq_some_iff.mp hdrop, hname⟩
    · exact ⟨false, cs, rfl, h⟩
  · rintro ⟨long, ds, rfl, hname⟩
    cases long with
    | true => rw [lead, if_pos rfl, Text.dropLead?_eq_some_iff.mpr rfl, Option.bind_some, hname]
    | false =>
      rw [lead, if_neg Bool.false_ne_true, List.nil_append]
      split
      · next r' hlong =>
        obtain ⟨es, hdrop, -⟩ := Option.bind_eq_some_iff.mp hlong
        rw [Text.dropLead?_eq_some_iff.mp hdrop, readName?_lead] at hname
        cases hname
      · exact hname

/-- **The reader takes exactly the placeholders.** -/
theorem placeholder?_eq_some_iff :
    placeholder? cs = some (name, rest) ↔ ∃ p : Placeholder, p.name = name ∧ cs = p.text ++ rest := by
  constructor
  · intro h
    unfold placeholder? at h
    split at h
    · next cs =>
      split at h
      · next ds hdollar =>
        obtain ⟨before, hbefore, hcs⟩ := Text.exists_trimStart cs
        obtain ⟨long, es, rfl, hname⟩ := readReference?_eq_some_iff.mp h
        obtain ⟨hisName, behind, hbehind, rfl⟩ := readName?_eq_some_iff.mp hname
        refine ⟨⟨before, long, name, behind, hbefore, hisName, hbehind⟩, rfl, ?_⟩
        rw [hcs, hdollar]
        simp [Placeholder.text]
      · cases h
    · cases h
  · rintro ⟨p, rfl, rfl⟩
    have hdollar : ∀ c ∈ ('$' :: (lead p.long ++ (p.name ++ (p.behind ++ '}' :: '}' :: rest)))).head?,
        Text.isBlank c = false := by
      intro c hc
      cases hc
      decide
    have htext : p.text ++ rest =
        '{' :: '{' :: (p.before ++ '$' :: (lead p.long ++ (p.name ++ (p.behind ++ '}' :: '}' :: rest)))) := by
      simp [Placeholder.text]
    rw [htext, placeholder?, Text.trimStart_append p.blank_before hdollar]
    exact readReference?_eq_some_iff.mpr
      ⟨p.long, _, rfl, readName?_eq_some_iff.mpr ⟨p.isName, p.behind, p.blank_behind, rfl⟩⟩

/-- A placeholder begins with two opening braces. -/
theorem placeholder?_of_head_ne {c : Char} (h : c ≠ '{') : placeholder? (c :: cs) = none := by
  unfold placeholder?
  split
  · next heq => exact absurd (List.cons.inj heq).1 h
  · rfl

theorem placeholder?_of_second_ne (h : ∀ c ∈ cs.head?, c ≠ '{') : placeholder? ('{' :: cs) = none := by
  unfold placeholder?
  split
  · next heq =>
    obtain ⟨-, rfl⟩ := List.cons.inj heq
    exact absurd rfl (h '{' rfl)
  · rfl

/-- No placeholder begins with three opening braces. -/
theorem placeholder?_three : placeholder? ('{' :: '{' :: '{' :: cs) = none := rfl

end Reading

/-! ## Segments -/

/-- A part of a template. -/
inductive Segment
  | literal (cs : List Char)
  | placeholder (p : Placeholder)

namespace Segment

def isLiteral : Segment → Bool
  | literal _ => true
  | placeholder _ => false

/-- The part as it is written. -/
def text : Segment → List Char
  | literal cs => cs
  | placeholder p => p.text

/-- What the part is rendered to: a literal as it is written, and a placeholder as the value of its label, or as
nothing if there is no such label. -/
def rendered (labels : Table String) : Segment → List Char
  | literal cs => cs
  | placeholder p =>
    match labels.get? (String.ofList p.name) with
    | some value => value.toList
    | none => []

end Segment

/-- The parts that a template is put together from: no literal has two opening braces side by side, and no literal
follows another. -/
structure AreSegments (segments : List Segment) : Prop where
  literals : ∀ a ∈ segments, a.isLiteral = true → ¬['{', '{'] <:+: a.text
  apart : segments.IsChain fun a b => ¬(a.isLiteral = true ∧ b.isLiteral = true)

section Rendering

variable (labels : Table String) {cs name rest : List Char}

theorem renderChars_nil : renderChars labels [] = [] := by
  rw [renderChars]
  rfl

theorem renderChars_of_some (h : placeholder? cs = some (name, rest)) :
    renderChars labels cs = valueOf labels name ++ renderChars labels rest := by
  rw [renderChars]
  split
  · next h' =>
    rw [h] at h'
    cases h'
    rfl
  · next h' =>
    rw [h] at h'
    cases h'

theorem renderChars_of_none {c : Char} (h : placeholder? (c :: cs) = none) :
    renderChars labels (c :: cs) = c :: renderChars labels cs := by
  rw [renderChars]
  split
  · next h' =>
    rw [h] at h'
    cases h'
  · rfl

/-- A placeholder is replaced, and rendering goes on behind it. -/
theorem renderChars_placeholder (p : Placeholder) (rest : List Char) :
    renderChars labels (p.text ++ rest) =
      (Segment.placeholder p).rendered labels ++ renderChars labels rest := by
  rw [renderChars_of_some labels (placeholder?_eq_some_iff.mpr ⟨p, rfl, rfl⟩), valueOf, Segment.rendered]
  cases labels.get? (String.ofList p.name) <;> rfl

/-- A literal stays, if it and what follows do not make two opening braces a placeholder. -/
theorem renderChars_literal (hcs : ¬['{', '{'] <:+: cs) (hrest : placeholder? ('{' :: rest) = none) :
    renderChars labels (cs ++ rest) = cs ++ renderChars labels rest := by
  induction cs with
  | nil => rfl
  | cons c cs ih =>
    have hnone : placeholder? (c :: (cs ++ rest)) = none := by
      by_cases hc : c = '{'
      · subst hc
        cases cs with
        | nil => exact hrest
        | cons d cs =>
          refine placeholder?_of_second_ne fun e he hbrace => hcs ?_
          cases he
          subst hbrace
          exact (List.prefix_append ['{', '{'] cs).isInfix
      · exact placeholder?_of_head_ne hc
    rw [List.cons_append, renderChars_of_none labels hnone,
      ih fun hoccurs => hcs (hoccurs.trans (List.suffix_cons c cs).isInfix), List.cons_append]

/-- **Every segment is found where it was put.** -/
theorem renderChars_flatMap {segments : List Segment} (h : AreSegments segments) :
    renderChars labels (segments.flatMap Segment.text) = segments.flatMap (Segment.rendered labels) := by
  induction segments with
  | nil => exact renderChars_nil labels
  | cons a segments ih =>
    have htail : AreSegments segments := ⟨fun b hb => h.literals b (List.mem_cons_of_mem a hb), h.apart.tail⟩
    rw [List.flatMap_cons, List.flatMap_cons, ← ih htail]
    cases a with
    | placeholder p => exact renderChars_placeholder labels p _
    | literal cs =>
      refine renderChars_literal labels (h.literals _ List.mem_cons_self rfl) ?_
      -- behind a literal the template ends or a placeholder follows, with the second and third of three braces
      cases segments with
      | nil => rfl
      | cons b segments =>
        cases b with
        | literal ds => exact absurd ⟨rfl, rfl⟩ (List.isChain_cons_cons.mp h.apart).1
        | placeholder p => exact placeholder?_three

/-- A text in which no placeholder stands is rendered as it is. -/
theorem renderChars_of_no_placeholder (h : ∀ p : Placeholder, ¬p.text <:+: cs) : renderChars labels cs = cs := by
  induction cs with
  | nil => exact renderChars_nil labels
  | cons c cs ih =>
    have hnone : placeholder? (c :: cs) = none := by
      refine Option.eq_none_iff_forall_ne_some.mpr fun r hr => ?_
      obtain ⟨p, -, hp⟩ := placeholder?_eq_some_iff.mp hr
      exact h p (hp ▸ (List.prefix_append p.text r.2).isInfix)
    rw [renderChars_of_none labels hnone, ih fun p hp => h p (hp.trans (List.suffix_cons c cs).isInfix)]

/-- **Rendering replaces every placeholder by the value of its label, once, and leaves all other text as it is**: a
template that is put together from segments becomes what its segments are rendered to, whatever the values are, and a
text in which no placeholder stands stays the same. -/
theorem segments_rendered (labels : Table String) :
    (∀ segments, AreSegments segments →
      render (String.ofList (segments.flatMap Segment.text)) labels =
        String.ofList (segments.flatMap (Segment.rendered labels))) ∧
      ∀ template : String, (∀ p : Placeholder, ¬p.text <:+: template.toList) → render template labels = template := by
  refine ⟨fun segments h => ?_, fun template h => ?_⟩
  · rw [render, String.toList_ofList, renderChars_flatMap labels h]
  · rw [render, renderChars_of_no_placeholder labels h, String.ofList_toList]

end Rendering

/-- A placeholder between two braces. -/
def braced : List Segment :=
  [.literal ['{'],
    .placeholder ⟨[], true, ['a'], [' '], by simp [Text.AreBlank], ⟨'a', [], rfl, rfl, by simp⟩,
      by simp [Text.AreBlank, Text.isBlank]⟩,
    .literal ['}']]

/-- A value and the braces around its placeholder can make the text of another placeholder, which is not looked at. -/
theorem segments_rendered_braced :
    let labels : Table String := .ofList [("a", "\x7b$b\x7d"), ("b", "95")]
    AreSegments braced ∧ String.ofList (braced.flatMap Segment.text) = "\x7b\x7b\x7b$labels.a \x7d\x7d\x7d" ∧
      render "\x7b\x7b\x7b$labels.a \x7d\x7d\x7d" labels = "\x7b\x7b$b\x7d\x7d" := by
  intro labels
  have h : AreSegments braced := by
    refine ⟨fun a ha hliteral => ?_, ?_⟩
    · simp only [braced, List.mem_cons, List.not_mem_nil, or_false] at ha
      rcases ha with rfl | rfl | rfl
      · decide
      · cases hliteral
      · decide
    · simp [braced, Segment.isLiteral]
  exact ⟨h, rfl, (segments_rendered labels).1 braced h⟩

end Alerting.Template
