import Alerting.Text.Blank

/-!
# Runs of characters at the ends of a text

A text that begins with a run of characters of one kind and goes on with another character is cut behind the run
(`takeWhile_append`, `dropWhile_append`). Trimming cuts a text between blanks out of them (`trim_between`), and every
text lies between blanks around its trimmed text (`exists_trim_between`).
-/

namespace Alerting.Text

/-! ## Runs -/

section Runs

variable {α : Type} {p : α → Bool} {run rest : List α}

theorem takeWhile_append (hrun : ∀ a ∈ run, p a = true) (hrest : ∀ a ∈ rest.head?, p a = false) :
    (run ++ rest).takeWhile p = run := by
  rw [List.takeWhile_append_of_pos hrun]
  cases rest with
  | nil => simp
  | cons a rest => simp [hrest a rfl]

theorem dropWhile_append (hrun : ∀ a ∈ run, p a = true) (hrest : ∀ a ∈ rest.head?, p a = false) :
    (run ++ rest).dropWhile p = rest := by
  rw [List.dropWhile_append_of_pos hrun]
  cases rest with
  | nil => rfl
  | cons a rest => simp [hrest a rfl]

theorem of_mem_takeWhile {as : List α} {a : α} (h : a ∈ as.takeWhile p) : p a = true :=
  List.all_eq_true.mp List.all_takeWhile a h

end Runs

/-! ## Blanks at the ends -/

/-- All characters are blank. -/
def AreBlank (cs : List Char) : Prop := ∀ c ∈ cs, isBlank c = true

/-- The text neither starts nor ends with a blank. -/
def IsTrimmed (cs : List Char) : Prop := (∀ c ∈ cs.head?, isBlank c = false) ∧ ∀ c ∈ cs.getLast?, isBlank c = false

theorem AreBlank.append {a b : List Char} (ha : AreBlank a) (hb : AreBlank b) : AreBlank (a ++ b) := fun c hc =>
  (List.mem_append.mp hc).elim (ha c) (hb c)

theorem trimStart_append {blanks cs : List Char} (hb : AreBlank blanks) (hcs : ∀ c ∈ cs.head?, isBlank c = false) :
    trimStart (blanks ++ cs) = cs := dropWhile_append hb hcs

theorem trimEnd_append {cs blanks : List Char} (hb : AreBlank blanks) (hcs : ∀ c ∈ cs.getLast?, isBlank c = false) :
    trimEnd (cs ++ blanks) = cs := by
  have h : (blanks.reverse ++ cs.reverse).dropWhile isBlank = cs.reverse :=
    dropWhile_append (fun c hc => hb c (List.mem_reverse.mp hc)) (by rwa [List.head?_reverse])
  rw [trimEnd, List.reverse_append, h, List.reverse_reverse]

/-- **Trimming cuts a text out of the blanks around it.** -/
theorem trim_between {before cs behind : List Char} (hbefore : AreBlank before) (hcs : IsTrimmed cs) (hne : cs ≠ [])
    (hbehind : AreBlank behind) : trim (before ++ cs ++ behind) = cs := by
  obtain ⟨c, cs, rfl⟩ := List.exists_cons_of_ne_nil hne
  have hstart : trimStart (before ++ (c :: cs ++ behind)) = c :: cs ++ behind := trimStart_append hbefore hcs.1
  rw [trim, List.append_assoc, hstart, trimEnd_append hbehind hcs.2]

theorem exists_trimStart (cs : List Char) : ∃ blanks, AreBlank blanks ∧ cs = blanks ++ trimStart cs :=
  ⟨cs.takeWhile isBlank, fun _ => of_mem_takeWhile, List.takeWhile_append_dropWhile.symm⟩

theorem exists_trimEnd (cs : List Char) : ∃ blanks, AreBlank blanks ∧ cs = trimEnd cs ++ blanks := by
  obtain ⟨blanks, hb, hcs⟩ := exists_trimStart cs.reverse
  refine ⟨blanks.reverse, fun c hc => hb c (List.mem_reverse.mp hc), ?_⟩
  have h := congrArg List.reverse hcs
  rwa [List.reverse_reverse, List.reverse_append] at h

/-- **Every text lies between blanks around its trimmed text.** -/
theorem exists_trim_between (cs : List Char) :
    ∃ before behind, AreBlank before ∧ AreBlank behind ∧ cs = before ++ trim cs ++ behind := by
  obtain ⟨before, hbefore, hstart⟩ := exists_trimStart cs
  obtain ⟨behind, hbehind, hend⟩ := exists_trimEnd (trimStart cs)
  refine ⟨before, behind, hbefore, hbehind, ?_⟩
  calc cs = before ++ trimStart cs := hstart
    _ = before ++ (trim cs ++ behind) := congrArg (before ++ ·) hend
    _ = before ++ trim cs ++ behind := (List.append_assoc ..).symm

end Alerting.Text
