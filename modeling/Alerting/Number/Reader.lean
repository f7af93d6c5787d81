import Alerting.Number.Basic
import Alerting.Text.Digits

/-!
# Reading decimal text

`Number.ofText?` accepts an optional sign, digits with at most one point and at least one digit on either side
of it, and an optional exponent; or the words `inf`, `infinity` and `nan` in any case. The value is the number
nearest to the decimal, ties to even.
-/

namespace Alerting.Number

/-- The number nearest to `digits * 10 ^ e`. -/
def ofDecimal (negative : Bool) (digits : Nat) (e : Int) : Number :=
  if digits == 0 then nearest negative 0 1
  else
    -- The decimal lies between `10 ^ (size - 1)` and `10 ^ size`.
    let size : Int := (Text.decimal digits).length + e
    if 310 < size then ⟨infinity.bits ||| (if negative then 0x8000000000000000 else 0)⟩
    else if size < -330 then nearest negative 0 1
    else if e < 0 then nearest negative digits (Nat.pow 10 e.natAbs)
    else nearest negative (digits * Nat.pow 10 e.natAbs) 1

/-- The exponent part of a decimal: nothing, or `e`, an optional sign and digits. -/
def readExponent? : List Char → Option Int
  | [] => some 0
  | c :: cs =>
    if c == 'e' || c == 'E' then
      match cs with
      | '+' :: ds => (Text.readNat? ds).map Int.ofNat
      | '-' :: ds => (Text.readNat? ds).map fun n => -Int.ofNat n
      | ds => (Text.readNat? ds).map Int.ofNat
    else none

/-- A decimal without its sign. -/
def readDecimal? (negative : Bool) (cs : List Char) : Option Number :=
  let (whole, rest) := Text.spanDigits cs
  let (fraction, rest) := match rest with
    | '.' :: rest => Text.spanDigits rest
    | _ => ([], rest)
  if whole.isEmpty && fraction.isEmpty then none
  else
    (readExponent? rest).map fun e =>
      ofDecimal negative (Text.natOfDigits (Text.natOfDigits 0 whole) fraction) (e - fraction.length)

/-- The words for the data that are no decimals. -/
def readWord? (cs : List Char) : Option Number :=
  match String.ofList (cs.map Char.toLower) with
  | "inf" => some infinity
  | "infinity" => some infinity
  | "nan" => some nan
  | _ => none

/-- A number without its sign. -/
def readUnsigned? (negative : Bool) (cs : List Char) : Option Number :=
  match readDecimal? negative cs with
  | some x => some x
  | none => (readWord? cs).map fun x => if negative then x.neg else x

/-- The number that a text denotes. -/
def ofChars? : List Char → Option Number
  | '+' :: cs => readUnsigned? false cs
  | '-' :: cs => readUnsigned? true cs
  | cs => readUnsigned? false cs

def ofText? (s : String) : Option Number := ofChars? s.toList

end Alerting.Number
