import Alerting.Error

/-!
# Configuration

The limits and delays of the engine. A configuration is valid when something can be submitted, queries get time
to answer, and the restart delay starts within its bound (`Config.validate`).
-/

namespace Alerting

/-- The limits and delays of the engine. -/
structure Config where
  /-- How many rules a bulk restart submits at a time. -/
  maxConcurrentSubmits : Nat
  /-- The grace period in seconds where a fault center sets none. -/
  defaultRecoverWaitSecs : Nat
  queryTimeoutSecs : Nat
  /-- The delay before the first restart of a panicked loop. -/
  restartBackoffBaseMs : Nat
  /-- The longest delay before a restart. -/
  restartBackoffMaxMs : Nat
  /-- A panic that long ago no longer counts. -/
  restartBackoffResetSecs : Nat
  deriving DecidableEq, Repr

namespace Config

/-- The configuration where nothing is set. -/
def standard : Config where
  maxConcurrentSubmits := 10
  defaultRecoverWaitSecs := 1
  queryTimeoutSecs := 30
  restartBackoffBaseMs := 500
  restartBackoffMaxMs := 60000
  restartBackoffResetSecs := 300

instance : Inhabited Config := ⟨standard⟩

/-- Whether the values make sense together. -/
def validate (c : Config) : Except EngineError Unit :=
  if c.maxConcurrentSubmits = 0 then .error (.config .noSubmitters)
  else if c.queryTimeoutSecs = 0 then .error (.config .noTimeout)
  else if c.restartBackoffMaxMs < c.restartBackoffBaseMs then .error (.config .backoffBounds)
  else .ok ()

def queryTimeout (c : Config) : Duration := .ofSecs c.queryTimeoutSecs

/-- The grace period of a fault center that has set `configured` seconds. -/
def recoverWait (c : Config) (configured : Nat) : Duration :=
  .ofSecs (if configured = 0 then c.defaultRecoverWaitSecs else configured)

/-- The delay before the restart after `failures` panics in a row: it doubles from panic to panic up to its
bound. The product is computed in 64 bits and stops at their end, and the doubling stops after 20 times. -/
def restartBackoff (c : Config) (failures : Nat) : Duration :=
  .ofMillis
    (min (min (c.restartBackoffBaseMs * Nat.pow 2 (min (failures - 1) 20)) (Nat.pow 2 64 - 1)) c.restartBackoffMaxMs)

def restartBackoffReset (c : Config) : Duration := .ofSecs c.restartBackoffResetSecs

end Config

end Alerting
