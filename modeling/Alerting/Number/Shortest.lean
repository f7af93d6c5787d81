import Alerting.Number.Basic
import Alerting.Text.Digits

/-!
# Shortest decimal text

A finite number is written with the fewest decimal digits that read back to it, the nearest such decimal when
there are several and the upper one of two equally near, without an exponent: positional notation throughout,
no point for a whole number.

The magnitude is compared in exact arithmetic with the reals that round to it, an interval whose ends belong to
it exactly when the significand is even (`Rounding`). For 1, 2, … 17 digits, `Rounding.digits` tries the two
neighbours of the magnitude on the grid of that many digits. Which of two equally near ones is taken is up to the
notation.
-/

namespace Alerting.Number

/-- A magnitude `value / den` between the ends `low / den` and `high / den` of the reals that round to it. -/
structure Rounding where
  low : Nat
  value : Nat
  high : Nat
  den : Nat
  /-- Whether the ends round to the magnitude. -/
  closed : Bool

/-- The reals that round to a finite nonzero magnitude. -/
def rounding (x : Number) : Rounding :=
  let m := x.significand
  let e := x.exponent
  -- Below a power of two the next smaller magnitude is half a step away.
  let gap := if x.fractionField == 0 && 1 < x.exponentField then 1 else 2
  let s := Nat.pow 2 e
  ⟨(4 * m - gap) * s, 4 * m * s, (4 * m + 2) * s, Nat.pow 2 1076, m % 2 == 0⟩

namespace Rounding

/-- Whether `n * step` lies among the reals that round to the magnitude; `step = num / div`. -/
def admits (r : Rounding) (n num div : Nat) : Bool :=
  let t := n * num * r.den
  if r.closed then r.low * div ≤ t && t ≤ r.high * div else r.low * div < t && t < r.high * div

/-- The greatest `p` with `10 ^ p ≤ value / den`, for a positive magnitude. -/
def decimalExponent (r : Rounding) : Int :=
  let reaches (p : Int) : Bool :=
    if p < 0 then r.den ≤ r.value * Nat.pow 10 p.natAbs else r.den * Nat.pow 10 p.natAbs ≤ r.value
  let k : Int := (Nat.log2 r.value : Int) - Nat.log2 r.den
  let guess : Int := Int.fdiv (k * 1233) 4096
  if reaches (guess + 1) then guess + 1 else if reaches guess then guess else guess - 1

/-- The nearest admitted decimal among the two neighbours of the magnitude on the grid of multiples of
`10 ^ e`. From the lower one of two equally near neighbours, `upper` tells whether the upper one is taken. -/
def onGrid (r : Rounding) (upper : Nat → Bool) (e : Int) : Option Nat :=
  let num := if e < 0 then 1 else Nat.pow 10 e.natAbs
  let div := if e < 0 then Nat.pow 10 e.natAbs else 1
  let below := r.value * div / (r.den * num)
  let above := below + 1
  match r.admits below num div, r.admits above num div with
  | true, true =>
    let toBelow := r.value * div - below * num * r.den
    let toAbove := above * num * r.den - r.value * div
    some (if toBelow < toAbove || (toBelow == toAbove && !upper below) then below else above)
  | true, false => some below
  | false, true => some above
  | false, false => none

/-- The first grid, from `n` digits on, that has an admitted decimal: its digits and its exponent. -/
def digitsFrom (r : Rounding) (upper : Nat → Bool) (p : Int) : (fuel n : Nat) → Nat × Int
  | 0, n => (0, p + 1 - n)
  | fuel + 1, n =>
    match r.onGrid upper (p + 1 - n) with
    | some d => (d, p + 1 - n)
    | none => digitsFrom r upper p fuel (n + 1)

/-- The shortest decimal `d * 10 ^ e` of the magnitude; 17 digits always suffice. -/
def digits (r : Rounding) (upper : Nat → Bool) : Nat × Int := r.digitsFrom upper r.decimalExponent 17 1

end Rounding

/-- Digits without the zeros at their end. -/
def trimZeros (ds : List Char) : List Char := (ds.reverse.dropWhile (· == '0')).reverse

/-- The decimal `d * 10 ^ e` in positional notation. -/
def positional (d : Nat) (e : Int) : List Char :=
  let ds := Text.decimal d
  if 0 ≤ e then ds ++ List.replicate e.natAbs '0'
  else
    let places := e.natAbs
    let ds := List.replicate (places + 1 - ds.length) '0' ++ ds
    let whole := ds.take (ds.length - places)
    let fraction := trimZeros (ds.drop (ds.length - places))
    if fraction.isEmpty then whole else whole ++ '.' :: fraction

/-- The text of a number's magnitude. -/
def magnitudeText (x : Number) : List Char :=
  if !x.isFinite then ['i', 'n', 'f']
  else if x.significand == 0 then ['0']
  else
    let (d, e) := x.rounding.digits fun _ => true
    positional d e

/-- The text of a number: the shortest decimal that reads back to it. -/
def text (x : Number) : String :=
  if x.isNaN then "NaN"
  else String.ofList (if x.isNegative then '-' :: x.magnitudeText else x.magnitudeText)

end Alerting.Number
