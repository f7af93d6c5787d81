/-!
# Decimal digits

Reading and writing natural numbers in ASCII decimal digits: `natOfDigits` folds a run of digits into its
value, `readNat?` reads a text that is one such run, `padded` writes a number with a least width.
-/

namespace Alerting.Text

/-- The value of an ASCII digit. -/
def digitValue (c : Char) : Nat := c.toNat - '0'.toNat

/-- Whether a character is an ASCII digit. -/
def isDigit (c : Char) : Bool := '0' ≤ c && c ≤ '9'

/-- The number that a run of digits denotes after the digits of `acc`. -/
def natOfDigits (acc : Nat) (cs : List Char) : Nat := cs.foldl (fun n c => 10 * n + digitValue c) acc

/-- The value of a nonempty text of digits. -/
def readNat? (cs : List Char) : Option Nat :=
  if !cs.isEmpty && cs.all isDigit then some (natOfDigits 0 cs) else none

/-- A natural number below `bound`, with an optional plus sign. -/
def readBelow? (bound : Nat) (cs : List Char) : Option Nat :=
  let digits := match cs with
    | '+' :: rest => rest
    | _ => cs
  (readNat? digits).filter (· < bound)

/-- The leading digits of a text and what follows them. -/
def spanDigits (cs : List Char) : List Char × List Char := (cs.takeWhile isDigit, cs.dropWhile isDigit)

/-- The decimal digits of a number. -/
def decimal (n : Nat) : List Char := (Nat.repr n).toList

/-- The decimal digits of a number, with leading zeros up to the width. -/
def padded (width n : Nat) : List Char :=
  let ds := decimal n
  List.replicate (width - ds.length) '0' ++ ds

/-- The value of an ASCII hexadecimal digit. -/
def hexValue? (c : Char) : Option Nat :=
  if isDigit c then some (digitValue c)
  else if 'a' ≤ c && c ≤ 'f' then some (c.toNat - 'a'.toNat + 10)
  else if 'A' ≤ c && c ≤ 'F' then some (c.toNat - 'A'.toNat + 10)
  else none

/-- The lower-case hexadecimal digit of a value below 16. -/
def hexDigit (n : Nat) : Char := if n < 10 then Char.ofNat ('0'.toNat + n) else Char.ofNat ('a'.toNat + (n - 10))

end Alerting.Text
