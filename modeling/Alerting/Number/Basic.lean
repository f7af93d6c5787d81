/-!
# Observed values

A `Number` is a value as a backend reports it and as a threshold names it: an IEEE 754 binary64 datum, kept as
its bits, so that numbers have decidable equality. Comparisons and arithmetic are those of binary64: every
comparison with a value that is not a number is false, and zero equals its negative.

`Number.nearest` rounds a quotient of naturals to the nearest number, ties to the even one. A product, a quotient or a
difference of finite numbers is computed exactly, in units of the least magnitude, and rounded once.
-/

namespace Alerting

/-- A binary64 value, by its bits. -/
structure Number where
  bits : UInt64
  deriving DecidableEq, Repr

namespace Number

instance : Inhabited Number := ⟨⟨0⟩⟩

/-! ## Parts -/

def isNegative (x : Number) : Bool := x.bits.toNat / Nat.pow 2 63 == 1

def exponentField (x : Number) : Nat := x.bits.toNat / Nat.pow 2 52 % Nat.pow 2 11

def fractionField (x : Number) : Nat := x.bits.toNat % Nat.pow 2 52

def isFinite (x : Number) : Bool := x.exponentField != 2047

/-- Whether the datum is not a number. -/
def isNaN (x : Number) : Bool := x.exponentField == 2047 && x.fractionField != 0

/-- The magnitude of a finite number is `significand * 2 ^ (exponent - 1074)`. -/
def significand (x : Number) : Nat :=
  if x.exponentField == 0 then x.fractionField else x.fractionField + Nat.pow 2 52

/-- The exponent of the magnitude, counted from the least one. -/
def exponent (x : Number) : Nat := x.exponentField - 1

/-- The magnitude of a finite number in units of `2 ^ -1074`. -/
def units (x : Number) : Nat := x.significand * Nat.pow 2 x.exponent

/-- A finite number in units of `2 ^ -1074`. -/
def signedUnits (x : Number) : Int := if x.isNegative then -(x.units : Int) else x.units

/-! ## Rounding -/

/-- The quotient rounded to the nearest natural number, a half to the even neighbour. -/
def roundHalfEven (num den : Nat) : Nat :=
  let q := num / den
  let r := num % den
  if 2 * r < den then q
  else if den < 2 * r then q + 1
  else q + q % 2

/-- The bits of the magnitude nearest to `num / den`, ties to even, with infinity from half a step above the
largest finite magnitude on. -/
def nearestMagnitude (num den : Nat) : Nat :=
  if num == 0 then 0 else
    -- `num / den` lies strictly between `2 ^ (k - 1)` and `2 ^ (k + 1)`.
    let k : Int := (Nat.log2 num : Int) - Nat.log2 den
    let scale (q : Int) : Nat × Nat :=
      if q < 0 then (num * Nat.pow 2 q.natAbs, den) else (num, den * Nat.pow 2 q.natAbs)
    let q₀ : Int := max (k - 53) (-1074)
    let q : Int := if (scale q₀).1 < (scale q₀).2 * Nat.pow 2 53 then q₀ else q₀ + 1
    let m := roundHalfEven (scale q).1 (scale q).2
    if m < Nat.pow 2 52 then m
    else min ((q + 1075).toNat * Nat.pow 2 52 + (m - Nat.pow 2 52)) (2047 * Nat.pow 2 52)

/-- The number nearest to `num / den`, with the given sign. -/
def nearest (negative : Bool) (num den : Nat) : Number :=
  ⟨UInt64.ofNat ((if negative then Nat.pow 2 63 else 0) + nearestMagnitude num den)⟩

def ofNat (n : Nat) : Number := nearest false n 1

def ofInt (n : Int) : Number := nearest (n < 0) n.natAbs 1

def infinity : Number := ⟨0x7FF0000000000000⟩

/-- The standard datum that is not a number. -/
def nan : Number := ⟨0x7FF8000000000000⟩

def neg (x : Number) : Number := ⟨x.bits ^^^ 0x8000000000000000⟩

/-! ## Arithmetic -/

/-- A number or its negative. -/
def signed (negative : Bool) (x : Number) : Number := if negative then x.neg else x

/-- The product, rounded to the nearest number; zero times infinity is not a number. -/
def mul (x y : Number) : Number :=
  let negative := x.isNegative != y.isNegative
  if x.isNaN || y.isNaN then nan
  else if x.isFinite && y.isFinite then nearest negative (x.units * y.units) (Nat.pow 2 2148)
  else if x.units == 0 || y.units == 0 then nan
  else signed negative infinity

/-- The quotient, rounded to the nearest number; zero by zero and infinity by infinity are not numbers. -/
def div (x y : Number) : Number :=
  let negative := x.isNegative != y.isNegative
  if x.isNaN || y.isNaN then nan
  else if x.isFinite then
    if !y.isFinite then nearest negative 0 1
    else if y.units != 0 then nearest negative x.units y.units
    else if x.units != 0 then signed negative infinity
    else nan
  else if y.isFinite then signed negative infinity
  else nan

/-- The magnitude of the difference, rounded to the nearest number; infinity less itself is not a number. -/
def distance (x y : Number) : Number :=
  if x.isNaN || y.isNaN then nan
  else if x.isFinite && y.isFinite then nearest false (x.signedUnits - y.signedUnits).natAbs (Nat.pow 2 1074)
  else if x = y then nan
  else infinity

/-! ## Comparison -/

/-- The place of a number among the others: its magnitude grows with its bits, and the two zeros have one place. -/
def rank (x : Number) : Int :=
  if x.isNegative then -(x.bits.toNat % Nat.pow 2 63 : Nat) else (x.bits.toNat % Nat.pow 2 63 : Nat)

def lt (x y : Number) : Bool := !x.isNaN && !y.isNaN && x.rank < y.rank

def le (x y : Number) : Bool := !x.isNaN && !y.isNaN && x.rank ≤ y.rank

/-- The gap between 1 and the next number, `2 ^ -52`. -/
def epsilon : Number := ⟨0x3CB0000000000000⟩

end Number

end Alerting
