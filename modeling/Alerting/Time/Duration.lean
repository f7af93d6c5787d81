import Alerting.Text.Digits

/-!
# Durations

A `Duration` is a length of time in nanoseconds. Its text uses the largest of the units second, millisecond,
microsecond and nanosecond that it reaches, with as many decimal places as it needs.
-/

namespace Alerting

/-- A length of time. -/
structure Duration where
  nanos : Nat
  deriving DecidableEq, Repr, Inhabited

namespace Duration

/-- Nanoseconds in a second. -/
def second : Nat := 1000000000

instance : LE Duration := ⟨fun a b => a.nanos ≤ b.nanos⟩

instance : LT Duration := ⟨fun a b => a.nanos < b.nanos⟩

instance (a b : Duration) : Decidable (a ≤ b) := inferInstanceAs (Decidable (a.nanos ≤ b.nanos))

instance (a b : Duration) : Decidable (a < b) := inferInstanceAs (Decidable (a.nanos < b.nanos))

protected theorem not_le {a b : Duration} : ¬a ≤ b ↔ b < a := Nat.not_le

protected theorem le_trans {a b c : Duration} (h : a ≤ b) (h' : b ≤ c) : a ≤ c := Nat.le_trans h h'

/-- A whole number of seconds. -/
def ofSecs (n : Nat) : Duration := ⟨n * second⟩

/-- A whole number of milliseconds. -/
def ofMillis (n : Nat) : Duration := ⟨n * 1000000⟩

/-- The whole seconds. -/
def secs (d : Duration) : Nat := d.nanos / second

/-- The nanoseconds beyond the whole seconds. -/
def subsecNanos (d : Duration) : Nat := d.nanos % second

/-- `whole + part / 10 ^ places` with as many decimal places as it needs. -/
def fixedPoint (whole part places : Nat) : List Char :=
  let fraction := ((Text.padded places part).reverse.dropWhile (· == '0')).reverse
  if fraction.isEmpty then Text.decimal whole else Text.decimal whole ++ '.' :: fraction

/-- The text of a duration. -/
def text (d : Duration) : String :=
  let n := d.nanos
  if second ≤ n then String.ofList (fixedPoint (n / second) (n % second) 9) ++ "s"
  else if 1000000 ≤ n then String.ofList (fixedPoint (n / 1000000) (n % 1000000) 6) ++ "ms"
  else if 1000 ≤ n then String.ofList (fixedPoint (n / 1000) (n % 1000) 3) ++ "µs"
  else String.ofList (Text.decimal n) ++ "ns"

end Duration

end Alerting
