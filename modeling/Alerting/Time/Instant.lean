import Alerting.Time.Calendar
import Alerting.Time.Duration

/-!
# Points in time

An `Instant` is a point on the UTC time scale: a day number, a second of that day and nanoseconds. A leap second
is the second before it with more than a full second of nanoseconds.

Instants are ordered by day, second and nanoseconds. `Instant.since` is the signed distance of two instants and
`Instant.shift` moves one; a leap second counts in the distance of two instants on either side of it within a
day, and moving away from inside one counts it too.
-/

namespace Alerting

/-- A point in time. -/
structure Instant where
  /-- The day, counted from 1 January 1970. -/
  day : Int
  /-- The second of the day. -/
  second : Nat
  /-- The nanoseconds, a whole second or more of them inside a leap second. -/
  nano : Nat
  second_lt : second < 86400
  nano_lt : nano < 2000000000
  deriving DecidableEq

namespace Instant

/-- The beginning of 1 January 1970. -/
def epoch : Instant := ⟨0, 0, 0, by decide, by decide⟩

instance : Inhabited Instant := ⟨epoch⟩

/-- The first day that has instants, 1 January -262143. -/
def firstDay : Int := -96465292

/-- The last day that has instants, 31 December 262142. -/
def lastDay : Int := 95026236

/-- Whether the instant lies on one of the days of the time scale. -/
def inRange (t : Instant) : Bool := firstDay ≤ t.day && t.day ≤ lastDay

/-- The instant that lies `n` nanoseconds after the beginning of a day. -/
def ofNanos (day n : Int) : Instant :=
  ⟨day + n / 86400000000000, (n / 1000000000 % 86400).toNat, (n % 1000000000).toNat, by omega, by omega⟩

/-- The nanoseconds from `s` to `t`, negative when `t` is earlier. -/
def since (t s : Instant) : Int :=
  let leap : Int :=
    if s.second < t.second ∧ 1000000000 ≤ s.nano then 1
    else if t.second < s.second ∧ 1000000000 ≤ t.nano then -1
    else 0
  ((t.day - s.day) * 86400 + ((t.second : Int) - s.second) + leap) * 1000000000 + ((t.nano : Int) - s.nano)

/-- The time from `s` to `t`, zero when `t` is earlier. -/
def elapsedSince (t s : Instant) : Duration := ⟨(t.since s).toNat⟩

/-- The instant `δ` nanoseconds later. -/
def shift (t : Instant) (δ : Int) : Instant :=
  if t.nano < 1000000000 then ofNanos t.day (t.second * 1000000000 + t.nano + δ)
  else if h : -1000000000 < δ ∧ δ < 1000000000 ∧ t.nano + δ < 2000000000 then
    ⟨t.day, t.second, (t.nano + δ).toNat, t.second_lt, by omega⟩
  else if 0 < δ then ofNanos t.day (t.second * 1000000000 + (t.nano - 1000000000) + δ)
  else ofNanos t.day ((t.second + 1) * 1000000000 + (t.nano - 1000000000) + δ)

/-- The instant that lies `d` before, if the time scale reaches back that far. -/
def before? (t : Instant) (d : Duration) : Option Instant :=
  let s := t.shift (-d.nanos)
  if s.inRange then some s else none

/-- The instant that lies `d` later. -/
def after (t : Instant) (d : Duration) : Instant := t.shift d.nanos

/-- The minute of the day. -/
def minuteOfDay (t : Instant) : Nat := t.second / 60

/-- The day of the week. -/
def weekday (t : Instant) : Weekday := Weekday.ofDay t.day

end Instant

end Alerting
