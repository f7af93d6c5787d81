import Alerting.Time.Duration

/-!
# Waits

A `Wait` is how long something waits in a simulation, in whole milliseconds. No wait is longer than thirty years;
one that was asked to be longer is over after thirty years (`Wait.ms_ofMillis`).
-/

namespace Alerting

/-- Milliseconds in thirty years of 365 days. -/
def thirtyYearsMs : Nat := 30 * 365 * 24 * 60 * 60 * 1000

/-- How long something waits. -/
structure Wait where
  ms : Nat
  ms_le : ms ≤ thirtyYearsMs
  deriving DecidableEq

namespace Wait

/-- A wait of some milliseconds, as far as a wait goes. -/
def ofMillis (ms : Nat) : Wait := ⟨min ms thirtyYearsMs, Nat.min_le_right ms thirtyYearsMs⟩

/-- A wait as long as a duration, in whole milliseconds and as far as a wait goes. -/
def ofDuration (d : Duration) : Wait := ofMillis (d.nanos / 1000000)

instance : Inhabited Wait := ⟨ofMillis 0⟩

/-- The shorter one of two waits. -/
instance : Min Wait := ⟨fun a b => if a.ms ≤ b.ms then a else b⟩

@[simp] theorem ms_ofMillis (ms : Nat) : (ofMillis ms).ms = min ms thirtyYearsMs := rfl

end Wait

end Alerting
