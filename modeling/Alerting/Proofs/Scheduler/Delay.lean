import Alerting.Config.Basic
import Mathlib.Algebra.Group.Nat.Defs

/-!
# The delay before a restart

The delay doubles from panic to panic until it has reached its bound (`Config.doubledBackoff`), but not more than
twenty times: from then on it stays what it is, whether the bound has been reached or not. Nothing is lost to the
width of 64 bits, since a product that does not fit is above every bound (`Config.restartBackoff_eq`). So the delay is
the doubled one for the first 21 panics, and after that exactly if twenty doublings reach the bound
(`Config.restart_delay_doubles_iff`).
-/

namespace Alerting

theorem Duration.ofMillis_inj {m n : Nat} : ofMillis m = ofMillis n ↔ m = n := by
  simp only [ofMillis, mk.injEq]
  omega

namespace Config

variable {c : Config}

/-- The delay that doubles from panic to panic up to its bound, in unbounded numbers. -/
def doubledBackoff (c : Config) (failures : Nat) : Duration :=
  .ofMillis (min (c.restartBackoffBaseMs * 2 ^ (failures - 1)) c.restartBackoffMaxMs)

/-- A bound of 64 bits hides that the product stops at their end. -/
theorem restartBackoff_eq (hmax : c.restartBackoffMaxMs < 2 ^ 64) (n : Nat) :
    c.restartBackoff n = .ofMillis (min (c.restartBackoffBaseMs * 2 ^ min (n - 1) 20) c.restartBackoffMaxMs) := by
  have hbound : c.restartBackoffMaxMs ≤ Nat.pow 2 64 - 1 := Nat.le_sub_one_of_lt hmax
  rw [restartBackoff, Nat.min_assoc, Nat.min_eq_right hbound]
  rfl

/-- More panics never make the delay shorter. -/
theorem restartBackoff_mono (c : Config) {m n : Nat} (h : m ≤ n) : c.restartBackoff m ≤ c.restartBackoff n := by
  have hpow : Nat.pow 2 (min (m - 1) 20) ≤ Nat.pow 2 (min (n - 1) 20) := Nat.pow_le_pow_right (by decide) (by omega)
  have hproduct := Nat.mul_le_mul_left c.restartBackoffBaseMs hpow
  refine Nat.mul_le_mul_right 1000000 ?_
  omega

/-- After 21 panics the delay stays the same. -/
theorem restartBackoff_of_le (c : Config) {n : Nat} (h : 21 ≤ n) : c.restartBackoff n = c.restartBackoff 21 := by
  have hexponent : min (n - 1) 20 = min (21 - 1) 20 := by omega
  rw [restartBackoff, restartBackoff, hexponent]

/-- Two powers under a bound: the larger one makes a difference unless the smaller one has reached the bound. -/
theorem min_mul_pow_eq_iff {base bound a b : Nat} (h : a < b) :
    min (base * 2 ^ a) bound = min (base * 2 ^ b) bound ↔ base = 0 ∨ bound ≤ base * 2 ^ a := by
  rcases Nat.eq_zero_or_pos base with rfl | hbase
  · simp
  · have hlt : base * 2 ^ a < base * 2 ^ b := Nat.mul_lt_mul_of_pos_left (Nat.pow_lt_pow_right (by decide) h) hbase
    omega

/-- **The delay is the doubled one for 21 panics, and for more exactly if it has reached its bound by then.** -/
theorem restart_delay_doubles_iff (hmax : c.restartBackoffMaxMs < 2 ^ 64) (n : Nat) :
    c.restartBackoff n = .ofMillis (min (c.restartBackoffBaseMs * 2 ^ min (n - 1) 20) c.restartBackoffMaxMs) ∧
      (c.restartBackoff n = c.doubledBackoff n ↔
        n ≤ 21 ∨ c.restartBackoffBaseMs = 0 ∨ c.restartBackoffMaxMs ≤ c.restartBackoffBaseMs * 2 ^ 20) := by
  refine ⟨restartBackoff_eq hmax n, ?_⟩
  rw [restartBackoff_eq hmax n, doubledBackoff, Duration.ofMillis_inj]
  rcases Nat.lt_or_ge 21 n with hn | hn
  · rw [Nat.min_eq_right (by omega : 20 ≤ n - 1), min_mul_pow_eq_iff (by omega : 20 < n - 1)]
    simp [Nat.not_le.mpr hn]
  · rw [Nat.min_eq_left (by omega : n - 1 ≤ 20)]
    simp [hn]

/-- Delays from a millisecond to an hour. -/
def upToAnHour : Config := { standard with restartBackoffBaseMs := 1, restartBackoffMaxMs := 3600000 }

/-- After thirty panics the delay is 17 minutes, where doubling would have reached the hour. -/
theorem restart_delay_doubles_iff_upToAnHour :
    upToAnHour.restartBackoffMaxMs < 2 ^ 64 ∧ upToAnHour.restartBackoff 30 = .ofMillis 1048576 ∧
      upToAnHour.restartBackoff 30 ≠ upToAnHour.doubledBackoff 30 := by
  have hmax : upToAnHour.restartBackoffMaxMs < 2 ^ 64 := by decide
  obtain ⟨heq, hiff⟩ := restart_delay_doubles_iff hmax 30
  exact ⟨hmax, heq.trans (by decide), fun h => absurd (hiff.mp h) (by decide)⟩

/-- A configuration is valid, and yet the delay stops doubling at 17 minutes and never reaches the bound of an hour. -/
theorem doubling_stops_early : upToAnHour.validate = .ok () ∧ upToAnHour.restartBackoff 22 = .ofMillis 1048576 ∧
    upToAnHour.doubledBackoff 22 = .ofMillis 2097152 :=
  ⟨rfl, by decide, by decide⟩

end Config

end Alerting
