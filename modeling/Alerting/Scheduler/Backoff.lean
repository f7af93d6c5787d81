import Alerting.Config.Basic

/-!
# Restart delays

A loop that panics is restarted after a delay that grows with the number of panics in a row. A `Backoff` counts
them; a panic that comes long enough after the one before it starts the count again.
-/

namespace Alerting

/-- The panics in a row of one loop. -/
structure Backoff where
  failures : Nat
  /-- When the latest panic was, counted from the beginning. -/
  last : Option Duration
  deriving DecidableEq

namespace Backoff

def fresh : Backoff := ⟨0, none⟩

instance : Inhabited Backoff := ⟨fresh⟩

/-- Whether the panics so far are long past. -/
def isStale (b : Backoff) (config : Config) (now : Duration) : Bool :=
  match b.last with
  | some last => config.restartBackoffReset ≤ ⟨now.nanos - last.nanos⟩
  | none => false

/-- Counts a panic. The count stops at the end of 32 bits. -/
def record (b : Backoff) (config : Config) (now : Duration) : Backoff :=
  ⟨min ((if b.isStale config now then 0 else b.failures) + 1) (Nat.pow 2 32 - 1), some now⟩

/-- The delay before the restart. -/
def delay (b : Backoff) (config : Config) : Duration := config.restartBackoff b.failures

end Backoff

end Alerting
