import Alerting.Proofs.Json.Numerals
import Mathlib.Data.List.DropRight

/-!
# Reading what was written

The text of a JSON value is read as that value (`parse?_render`), except that a number that is no integer comes back as
what its text denotes, which can be another number (`Json.reread`). The proof follows the structure of the value: one
lemma for each step that the reader takes at a list or an object, and from these the three readers of values, of
elements and of members together.
-/

namespace Alerting.Json

/-! ## Texts -/

/-- The four hexadecimal digits of a control character denote it. -/
theorem hex4?_control : ∀ n < 0x20, hex4? '0' '0' (Text.hexDigit (n / 16)) (Text.hexDigit (n % 16)) = some n := by
  decide

theorem readText?_unicode {a b c d : Char} {n : Nat} (h : hex4? a b c d = some n) (hn : n < 0xD800)
    (acc tail : List Char) :
    readText? true none acc ('\\' :: 'u' :: a :: b :: c :: d :: tail) =
      readText? true none (Char.ofNat n :: acc) tail := by
  rw [readText?.eq_def]
  simp only [h, hn, decide_true, Bool.true_or, if_true]

theorem readText?_plain {c : Char} (hquote : c ≠ '"') (hslash : c ≠ '\\') (hcontrol : ¬c.toNat < 0x20)
    (acc tail : List Char) : readText? true none acc (c :: tail) = readText? true none (c :: acc) tail := by
  rw [readText?.eq_def]
  split
  · next heq => cases heq
  · next heq => exact absurd (List.cons.inj heq).1 hquote
  · next heq => exact absurd (List.cons.inj heq).1 hslash
  · next heq => exact absurd (List.cons.inj heq).1 hslash
  · next heq =>
    cases heq
    simp [hslash, hcontrol]

/-- The escape of a character is read as the character. -/
theorem readText?_escape (acc : List Char) (c : Char) (tail : List Char) :
    readText? true none acc (escape c ++ tail) = readText? true none (c :: acc) tail := by
  unfold escape
  split
  · next h => rw [beq_iff_eq.mp h]; rfl
  split
  · next h => rw [beq_iff_eq.mp h]; rfl
  split
  · next h => rw [beq_iff_eq.mp h]; rfl
  split
  · next h => rw [beq_iff_eq.mp h]; rfl
  split
  · next h => rw [beq_iff_eq.mp h]; rfl
  split
  · next h =>
    have hunicode := readText?_unicode (hex4?_control c.toNat h) (by omega) acc tail
    rwa [Char.ofNat_toNat] at hunicode
  · next hquote hslash _ _ _ hcontrol =>
    exact readText?_plain (mt beq_iff_eq.mpr hquote) (mt beq_iff_eq.mpr hslash) hcontrol acc tail

/-- **A quoted text is read as the text.** -/
theorem readText?_quoted (rest : List Char) : ∀ (cs acc : List Char),
    readText? true none acc (cs.flatMap escape ++ '"' :: rest) = some (some (String.ofList (acc.reverse ++ cs)), rest)
  | [], acc => by simp [readText?]
  | c :: cs, acc => by
    rw [List.flatMap_cons, List.append_assoc, readText?_escape, readText?_quoted rest cs (c :: acc), List.reverse_cons,
      List.append_assoc, List.singleton_append]

theorem toList_quoted (s : String) : (quoted s).toList = '"' :: (s.toList.flatMap escape ++ ['"']) := by
  simp [quoted, String.toList_append]

/-! ## Values -/

mutual

/-- The value that is read where a value was written: a number is what its text denotes. -/
def reread : Json → Json
  | float x => (parse? (floatText x)).getD unreadable
  | list elems => list (rereadAll elems)
  | object members => object (rereadMembers members)
  | v => v

def rereadAll : List Json → List Json
  | [] => []
  | v :: vs => reread v :: rereadAll vs

def rereadMembers : List (String × Json) → List (String × Json)
  | [] => []
  | (name, v) :: ms => (name, reread v) :: rereadMembers ms

end

mutual

/-- The value has a text: integers have 64 bits, and other numbers are finite and their texts denote values. -/
def IsWritable : Json → Prop
  | int n => -2 ^ 63 ≤ n ∧ n < 2 ^ 64
  | float x => x.isFinite = true ∧ (parse? (floatText x)).isSome = true
  | list elems => AreWritable elems
  | object members => AreWritableMembers members
  | unreadable => False
  | _ => True

def AreWritable : List Json → Prop
  | [] => True
  | v :: vs => IsWritable v ∧ AreWritable vs

def AreWritableMembers : List (String × Json) → Prop
  | [] => True
  | (_, v) :: ms => IsWritable v ∧ AreWritableMembers ms

end

/-! ### The texts of lists and objects -/

theorem toList_render_list (vs : List Json) :
    (render (list vs)).toList = '[' :: ((renderElems vs).toList ++ [']']) := by
  simp [render, String.toList_append]

theorem toList_renderElems_cons (v w : Json) (vs : List Json) :
    (renderElems (v :: w :: vs)).toList = (render v).toList ++ ',' :: (renderElems (w :: vs)).toList := by
  simp [renderElems, String.toList_append]

theorem toList_render_object (ms : List (String × Json)) :
    (render (object ms)).toList = '\x7b' :: ((renderMembers ms).toList ++ ['\x7d']) := by
  simp [render, String.toList_append]

theorem toList_renderMembers_singleton (name : String) (v : Json) :
    (renderMembers [(name, v)]).toList = (quoted name).toList ++ ':' :: (render v).toList := by
  simp [renderMembers, String.toList_append]

theorem toList_renderMembers_cons (name : String) (v : Json) (m : String × Json) (ms : List (String × Json)) :
    (renderMembers ((name, v) :: m :: ms)).toList =
      (quoted name).toList ++ ':' :: ((render v).toList ++ ',' :: (renderMembers (m :: ms)).toList) := by
  simp [renderMembers, String.toList_append]

theorem exists_renderMembers_eq (name : String) (v : Json) (ms : List (String × Json)) :
    ∃ tail, (renderMembers ((name, v) :: ms)).toList = (quoted name).toList ++ tail := by
  cases ms with
  | nil => exact ⟨_, toList_renderMembers_singleton name v⟩
  | cons m ms => exact ⟨_, toList_renderMembers_cons name v m ms⟩

/-! ### Single steps of the reader -/

variable {fuel : Nat} {cs rest : List Char} {v : Json} {acc : List Json} {names : List (Option String × Json)}

theorem skipSpace_skipSpace (cs : List Char) : skipSpace (skipSpace cs) = skipSpace cs :=
  List.dropWhile_idempotent _ _

theorem readValue?_skipSpace (cs : List Char) : readValue? fuel (skipSpace cs) = readValue? fuel cs := by
  cases fuel with
  | zero => rfl
  | succ fuel => rw [readValue?, readValue?, skipSpace_skipSpace]

theorem readElems?_skipSpace (cs : List Char) : readElems? fuel acc (skipSpace cs) = readElems? fuel acc cs := by
  cases fuel with
  | zero => rfl
  | succ fuel => rw [readElems?, readElems?, readValue?_skipSpace]

theorem readElems?_last (h : readValue? fuel cs = some (v, ']' :: rest)) :
    readElems? (fuel + 1) acc cs = some (list (v :: acc).reverse, rest) := by
  rw [readElems?, h]
  rfl

theorem readElems?_next (h : readValue? fuel cs = some (v, ',' :: rest)) :
    readElems? (fuel + 1) acc cs = readElems? fuel (v :: acc) rest := by
  rw [readElems?, h]
  rfl

/-- A list with an element does not end at once. -/
theorem readElems?_ne_end {a : Json × List Char} (h : readElems? fuel acc cs = some a) (tail : List Char) :
    skipSpace cs ≠ ']' :: tail := by
  intro hend
  cases fuel with
  | zero => cases h
  | succ fuel =>
    rw [readElems?, ← readValue?_skipSpace, hend] at h
    cases fuel <;> cases h

theorem readValue?_bracket (cs : List Char) :
    readValue? (fuel + 1) ('[' :: cs) =
      match skipSpace cs with
      | ']' :: cs => some (list [], cs)
      | cs => readElems? fuel [] cs := rfl

theorem readValue?_list (h : readElems? fuel [] cs = some (v, rest)) :
    readValue? (fuel + 1) ('[' :: cs) = some (v, rest) := by
  rw [readValue?_bracket]
  split
  · next hend => exact absurd hend (readElems?_ne_end h _)
  · rw [readElems?_skipSpace, h]

theorem readText?_quoted_tail (name : String) (rest : List Char) :
    ∃ cs, (quoted name).toList ++ rest = '"' :: cs ∧ readText? true none [] cs = some (some name, rest) := by
  refine ⟨name.toList.flatMap escape ++ '"' :: rest, by simp [toList_quoted], ?_⟩
  rw [readText?_quoted, List.reverse_nil, List.nil_append, String.ofList_toList]

theorem readValue?_text (s : String) (rest : List Char) :
    readValue? (fuel + 1) ((quoted s).toList ++ rest) = some (text s, rest) := by
  obtain ⟨cs, hcs, hread⟩ := readText?_quoted_tail s rest
  rw [hcs]
  change (readText? true none [] cs).map _ = _
  rw [hread]
  rfl

/-- A member that is the last one. -/
theorem readMembers?_last {name : String} (h : readValue? fuel cs = some (v, '\x7d' :: rest)) :
    readMembers? (fuel + 1) names ((quoted name).toList ++ ':' :: cs) =
      some (ofMembers ((some name, v) :: names).reverse, rest) := by
  obtain ⟨tail, htail, hread⟩ := readText?_quoted_tail name (':' :: cs)
  rw [htail, readMembers?, skipSpace_cons (by decide)]
  simp only [hread, skipSpace_cons (c := ':') (by decide), h, skipSpace_cons (c := '\x7d') (by decide)]

theorem readMembers?_next {name : String} (h : readValue? fuel cs = some (v, ',' :: rest)) :
    readMembers? (fuel + 1) names ((quoted name).toList ++ ':' :: cs) =
      readMembers? fuel ((some name, v) :: names) rest := by
  obtain ⟨tail, htail, hread⟩ := readText?_quoted_tail name (':' :: cs)
  rw [htail, readMembers?, skipSpace_cons (by decide)]
  simp only [hread, skipSpace_cons (c := ':') (by decide), h, skipSpace_cons (c := ',') (by decide)]

theorem readValue?_brace (cs : List Char) :
    readValue? (fuel + 1) ('\x7b' :: cs) =
      match skipSpace cs with
      | '\x7d' :: cs => some (object [], cs)
      | cs => readMembers? fuel [] cs := rfl

theorem readValue?_object {name : String} (h : readMembers? fuel [] ((quoted name).toList ++ cs) = some (v, rest)) :
    readValue? (fuel + 1) ('\x7b' :: ((quoted name).toList ++ cs)) = some (v, rest) := by
  obtain ⟨tail, htail, -⟩ := readText?_quoted_tail name cs
  rw [readValue?_brace, htail, skipSpace_cons (by decide)]
  rw [htail] at h
  exact h

/-- The members of an object as the reader holds them. -/
def pending (ms : List (String × Json)) : List (Option String × Json) := ms.map fun m => (some m.1, m.2)

theorem pending_cons (name : String) (v : Json) (ms : List (String × Json)) :
    pending ((name, v) :: ms) = (some name, v) :: pending ms := rfl

theorem ofMembers_pending (ms : List (String × Json)) : ofMembers (pending ms).reverse = object ms.reverse := by
  have h (ms : List (String × Json)) : (pending ms).mapM (fun m => m.1.map fun name => (name, m.2)) = some ms := by
    induction ms with
    | nil => rfl
    | cons m ms ih => rw [pending_cons, List.mapM_cons, ih]; rfl
  have hreverse : (pending ms).reverse = pending ms.reverse := List.map_reverse.symm
  rw [ofMembers, hreverse, h]

/-! ### Whole values -/

theorem isDelimited_cons {c : Char} (h : c = ',' ∨ c = ']' ∨ c = '\x7d') (cs : List Char) : IsDelimited (c :: cs) := by
  rintro d hd
  cases hd
  exact h

mutual

/-- Where a value was written, a reader with enough fuel finds it again; each list and each object costs a unit and
has two characters of its own, and so has each element or member with the comma before it. -/
theorem readValue?_render : ∀ (v : Json), v.IsWritable → ∀ (fuel : Nat) (rest : List Char),
    (render v).toList.length ≤ fuel → IsDelimited rest →
      readValue? (fuel + 1) ((render v).toList ++ rest) = some (v.reread, rest)
  | null, _, _, _, _, _ => rfl
  | bool true, _, _, _, _, _ => rfl
  | bool false, _, _, _, _, _ => rfl
  | int n, h, fuel, _, _, hrest => readValue?_numeral (areNumeralChars_int n) (readNumber?_int h.1 h.2) hrest fuel
  | float x, h, fuel, rest, _, hrest => by
    obtain ⟨hfinite, hsome⟩ := h
    obtain ⟨w, hw⟩ := Option.isSome_iff_exists.mp hsome
    rw [render, if_pos hfinite, reread, hw]
    have hchars := areNumeralChars_floatText x
    exact readValue?_numeral hchars (readNumber?_of_parse? hchars hw) hrest fuel
  | text s, _, _, rest, _, _ => readValue?_text s rest
  | list [], _, _, _, _, _ => rfl
  | list (v :: vs), h, fuel, rest, hfuel, _ => by
    rw [toList_render_list] at hfuel ⊢
    simp only [List.length_cons, List.length_append, List.length_nil] at hfuel
    have hread := readElems?_render (v :: vs) nofun h fuel [] rest (by omega)
    rw [List.cons_append, List.append_assoc, List.singleton_append, readValue?_list hread]
    rfl
  | object [], _, _, _, _, _ => rfl
  | object ((name, v) :: ms), h, fuel, rest, hfuel, _ => by
    rw [toList_render_object] at hfuel ⊢
    simp only [List.length_cons, List.length_append, List.length_nil] at hfuel
    have hread := readMembers?_render ((name, v) :: ms) nofun h fuel [] rest (by omega)
    obtain ⟨tail, htail⟩ := exists_renderMembers_eq name v ms
    rw [htail, List.append_assoc] at hread
    rw [List.cons_append, List.append_assoc, List.singleton_append, htail, List.append_assoc, readValue?_object hread]
    rfl

theorem readElems?_render : ∀ (vs : List Json), vs ≠ [] → AreWritable vs →
    ∀ (fuel : Nat) (acc : List Json) (rest : List Char), (renderElems vs).toList.length + 2 ≤ fuel →
      readElems? fuel acc ((renderElems vs).toList ++ ']' :: rest) = some (list (acc.reverse ++ rereadAll vs), rest)
  | [], hne, _ => (hne rfl).elim
  | [v], _, h => by
    intro fuel acc rest hfuel
    obtain ⟨f, rfl⟩ : ∃ f, fuel = f + 2 := ⟨fuel - 2, by omega⟩
    simp only [renderElems] at hfuel ⊢
    have hv := readValue?_render v h.1 f (']' :: rest) (by omega) (isDelimited_cons (by decide) _)
    rw [readElems?_last hv, List.reverse_cons]
    rfl
  | v :: w :: vs, _, h => by
    intro fuel acc rest hfuel
    rw [toList_renderElems_cons] at hfuel ⊢
    simp only [List.length_append, List.length_cons] at hfuel
    obtain ⟨f, rfl⟩ : ∃ f, fuel = f + 2 := ⟨fuel - 2, by omega⟩
    have hv := readValue?_render v h.1 f (',' :: ((renderElems (w :: vs)).toList ++ ']' :: rest)) (by omega)
      (isDelimited_cons (by decide) _)
    have hvs := readElems?_render (w :: vs) nofun h.2 (f + 1) (v.reread :: acc) rest (by omega)
    rw [List.append_assoc, List.cons_append, readElems?_next hv, hvs, List.reverse_cons, List.append_assoc]
    rfl

theorem readMembers?_render : ∀ (ms : List (String × Json)), ms ≠ [] → AreWritableMembers ms →
    ∀ (fuel : Nat) (acc : List (String × Json)) (rest : List Char), (renderMembers ms).toList.length + 2 ≤ fuel →
      readMembers? fuel (pending acc) ((renderMembers ms).toList ++ '\x7d' :: rest) =
        some (object (acc.reverse ++ rereadMembers ms), rest)
  | [], hne, _ => (hne rfl).elim
  | [(name, v)], _, h => by
    intro fuel acc rest hfuel
    rw [toList_renderMembers_singleton] at hfuel ⊢
    simp only [List.length_append, List.length_cons] at hfuel
    obtain ⟨f, rfl⟩ : ∃ f, fuel = f + 2 := ⟨fuel - 2, by omega⟩
    have hv := readValue?_render v h.1 f ('\x7d' :: rest) (by omega) (isDelimited_cons (by decide) _)
    rw [List.append_assoc, List.cons_append, readMembers?_last hv, ← pending_cons, ofMembers_pending,
      List.reverse_cons]
    rfl
  | (name, v) :: m :: ms, _, h => by
    intro fuel acc rest hfuel
    rw [toList_renderMembers_cons] at hfuel ⊢
    simp only [List.length_append, List.length_cons] at hfuel
    obtain ⟨f, rfl⟩ : ∃ f, fuel = f + 2 := ⟨fuel - 2, by omega⟩
    have hv := readValue?_render v h.1 f (',' :: ((renderMembers (m :: ms)).toList ++ '\x7d' :: rest)) (by omega)
      (isDelimited_cons (by decide) _)
    have hms := readMembers?_render (m :: ms) nofun h.2 (f + 1) ((name, v.reread) :: acc) rest (by omega)
    rw [List.append_assoc, List.cons_append, List.append_assoc, List.cons_append, readMembers?_next hv, ← pending_cons,
      hms, List.reverse_cons, List.append_assoc]
    rfl

end

/-- **A value is read back from its text, its numbers as their texts have them.** -/
theorem parse?_render {v : Json} (h : v.IsWritable) : parse? v.render = some v.reread := by
  have hread := readValue?_render v h (2 * v.render.toList.length) [] (by omega) isDelimited_nil
  rw [List.append_nil] at hread
  unfold parse?
  dsimp only
  rw [hread]
  rfl

end Alerting.Json
