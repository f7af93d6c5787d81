/-!
# The Gregorian calendar

Days are counted from 1 January 1970, day 0, in both directions; dates are those of the Gregorian calendar
extended to all years. `Date.toDay` and `Date.ofDay` convert between them: years are taken to begin in March,
so that a leap day ends its year, and are grouped into cycles of 400.
-/

namespace Alerting

/-- A calendar date. -/
structure Date where
  year : Int
  month : Nat
  day : Nat
  deriving DecidableEq, Repr

/-- A day of the week. -/
inductive Weekday
  | mon | tue | wed | thu | fri | sat | sun
  deriving DecidableEq, Repr

namespace Date

/-- Whether a year has a 29 February. -/
def isLeapYear (y : Int) : Bool := y % 4 == 0 && (y % 100 != 0 || y % 400 == 0)

/-- The number of days of a month. -/
def daysInMonth (y : Int) (m : Nat) : Nat :=
  if m == 2 then (if isLeapYear y then 29 else 28)
  else if m == 4 || m == 6 || m == 9 || m == 11 then 30
  else 31

/-- Whether the month and the day of the month exist. -/
def isValid (d : Date) : Bool :=
  1 ≤ d.month && d.month ≤ 12 && 1 ≤ d.day && d.day ≤ daysInMonth d.year d.month

/-- The day number of a date. -/
def toDay (d : Date) : Int :=
  let y := if d.month ≤ 2 then d.year - 1 else d.year
  let yearOfCycle := y % 400
  let month : Int := if d.month ≤ 2 then d.month + 9 else d.month - 3
  let dayOfYear := (153 * month + 2) / 5 + d.day - 1
  y / 400 * 146097 + yearOfCycle * 365 + yearOfCycle / 4 - yearOfCycle / 100 + dayOfYear - 719468

/-- The date of a day number. -/
def ofDay (n : Int) : Date :=
  let z := n + 719468
  let dayOfCycle := z % 146097
  let yearOfCycle := (dayOfCycle - dayOfCycle / 1460 + dayOfCycle / 36524 - dayOfCycle / 146096) / 365
  let dayOfYear := dayOfCycle - (365 * yearOfCycle + yearOfCycle / 4 - yearOfCycle / 100)
  let month := (5 * dayOfYear + 2) / 153
  let year := z / 146097 * 400 + yearOfCycle
  ⟨if month < 10 then year else year + 1, (if month < 10 then month + 3 else month - 9).toNat,
    (dayOfYear - (153 * month + 2) / 5 + 1).toNat⟩

end Date

namespace Weekday

/-- The day of the week of a day number; day 0 was a Thursday. -/
def ofDay (n : Int) : Weekday :=
  match ((n + 3) % 7).toNat with
  | 0 => mon
  | 1 => tue
  | 2 => wed
  | 3 => thu
  | 4 => fri
  | 5 => sat
  | _ => sun

/-- The short English name. -/
def name : Weekday → String
  | mon => "Mon"
  | tue => "Tue"
  | wed => "Wed"
  | thu => "Thu"
  | fri => "Fri"
  | sat => "Sat"
  | sun => "Sun"

/-- Reads a short or full English name in any case. -/
def ofName? (s : String) : Option Weekday :=
  match String.ofList (s.toList.map Char.toLower) with
  | "mon" | "monday" => some mon
  | "tue" | "tuesday" => some tue
  | "wed" | "wednesday" => some wed
  | "thu" | "thursday" => some thu
  | "fri" | "friday" => some fri
  | "sat" | "saturday" => some sat
  | "sun" | "sunday" => some sun
  | _ => none

end Weekday

end Alerting
