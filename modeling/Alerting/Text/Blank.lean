/-!
# Blank characters

The blank characters are those with the Unicode property White_Space. Trimming a text drops them from its
start (`trimStart`), from its end (`trimEnd`) or from both (`trim`); a trimmed text neither starts nor ends
with one.
-/

namespace Alerting.Text

/-- Whether a character has the Unicode property White_Space. -/
def isBlank (c : Char) : Bool :=
  let n := c.toNat
  (9 ≤ n && n ≤ 13) || n == 0x20 || n == 0x85 || n == 0xA0 || n == 0x1680 || (0x2000 ≤ n && n ≤ 0x200A)
    || n == 0x2028 || n == 0x2029 || n == 0x202F || n == 0x205F || n == 0x3000

/-- The text from its first character that is not blank. -/
def trimStart (cs : List Char) : List Char := cs.dropWhile isBlank

/-- The text up to its last character that is not blank. -/
def trimEnd (cs : List Char) : List Char := (cs.reverse.dropWhile isBlank).reverse

def trim (cs : List Char) : List Char := trimEnd (trimStart cs)

/-- The text after `lead`, if it starts with it. -/
def dropLead? : (lead cs : List Char) → Option (List Char)
  | [], cs => some cs
  | _ :: _, [] => none
  | a :: lead, c :: cs => if a = c then dropLead? lead cs else none

/-- A text starts with `lead` exactly when it is `lead` and what is left. -/
theorem dropLead?_eq_some_iff : ∀ {lead cs rest : List Char}, dropLead? lead cs = some rest ↔ cs = lead ++ rest
  | [], cs, rest => by simp [dropLead?]
  | _ :: _, [], rest => by simp [dropLead?]
  | a :: lead, c :: cs, rest => by
    by_cases h : a = c
    · subst h; simp [dropLead?, dropLead?_eq_some_iff]
    · simp [dropLead?, h, Ne.symm h]

end Alerting.Text
