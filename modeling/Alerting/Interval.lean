import Alerting.Time.Instant

/-!
# Intervals and effective times

An `Interval` is a number of time units. An `EffectiveTime` is a daily window of minutes on some days of the
week; a window that ends before it starts wraps past midnight.
-/

namespace Alerting

/-- A unit of time. -/
inductive TimeUnit
  | milliseconds
  | seconds
  | minutes
  deriving DecidableEq, Repr

namespace TimeUnit

instance : Inhabited TimeUnit := ⟨seconds⟩

def name : TimeUnit → String
  | milliseconds => "milliseconds"
  | seconds => "seconds"
  | minutes => "minutes"

def ofName? : String → Option TimeUnit
  | "milliseconds" => some milliseconds
  | "seconds" => some seconds
  | "minutes" => some minutes
  | _ => none

theorem ofName?_name (u : TimeUnit) : ofName? u.name = some u := by cases u <;> rfl

/-- The name of a unit with a capital, as it stands in a description. -/
def title : TimeUnit → String
  | milliseconds => "Milliseconds"
  | seconds => "Seconds"
  | minutes => "Minutes"

/-- The length of `n` units; minutes are counted in at most `2 ^ 64 - 1` seconds. -/
def duration (u : TimeUnit) (n : Nat) : Duration :=
  match u with
  | milliseconds => .ofMillis n
  | seconds => .ofSecs n
  | minutes => .ofSecs (min (n * 60) (Nat.pow 2 64 - 1))

end TimeUnit

/-- A number of time units. -/
structure Interval where
  value : Nat
  unit : TimeUnit
  deriving DecidableEq, Repr, Inhabited

def Interval.duration (i : Interval) : Duration := i.unit.duration i.value

/-- A daily window on some days of the week. -/
structure EffectiveTime where
  /-- The days; none means every day. -/
  weekdays : List Weekday
  /-- The first minute of the day inside the window. -/
  startMinute : Nat
  /-- The first minute of the day behind the window. -/
  endMinute : Nat
  deriving DecidableEq, Repr

/-- Whether an instant lies in the window. -/
def EffectiveTime.contains (w : EffectiveTime) (t : Instant) : Bool :=
  (w.weekdays.isEmpty || w.weekdays.contains t.weekday) &&
    if w.startMinute ≤ w.endMinute then w.startMinute ≤ t.minuteOfDay && t.minuteOfDay < w.endMinute
    else w.startMinute ≤ t.minuteOfDay || t.minuteOfDay < w.endMinute

end Alerting
