import Alerting.Config.Basic
import Alerting.Config.FileTree
import Alerting.Json.Decode
import Alerting.Json.Reader

/-!
# Reading configurations

A configuration is read from JSON, where everything that is not set has its standard value, and must be valid
(`Config.ofText`). It may come from a file (`Config.ofFile`), whose content must be UTF-8.
-/

namespace Alerting

open Json

namespace Config

def toJson (c : Config) : Json :=
  .object [("max_concurrent_submits", .nat c.maxConcurrentSubmits),
    ("default_recover_wait_secs", .nat c.defaultRecoverWaitSecs), ("query_timeout_secs", .nat c.queryTimeoutSecs),
    ("restart_backoff_base_ms", .nat c.restartBackoffBaseMs),
    ("restart_backoff_max_ms", .nat c.restartBackoffMaxMs),
    ("restart_backoff_reset_secs", .nat c.restartBackoffResetSecs)]

/-- The configuration of a JSON form; every member has its standard value by default. -/
def ofJson? (v : Json) : Option Config := do
  let f ← v.fields?
    ["max_concurrent_submits", "default_recover_wait_secs", "query_timeout_secs", "restart_backoff_base_ms",
      "restart_backoff_max_ms", "restart_backoff_reset_secs"]
  let maxConcurrentSubmits ← f.withDefault "max_concurrent_submits" nat64? standard.maxConcurrentSubmits
  let defaultRecoverWaitSecs ← f.withDefault "default_recover_wait_secs" nat64? standard.defaultRecoverWaitSecs
  let queryTimeoutSecs ← f.withDefault "query_timeout_secs" nat64? standard.queryTimeoutSecs
  let restartBackoffBaseMs ← f.withDefault "restart_backoff_base_ms" nat64? standard.restartBackoffBaseMs
  let restartBackoffMaxMs ← f.withDefault "restart_backoff_max_ms" nat64? standard.restartBackoffMaxMs
  let restartBackoffResetSecs ←
    f.withDefault "restart_backoff_reset_secs" nat64? standard.restartBackoffResetSecs
  some ⟨maxConcurrentSubmits, defaultRecoverWaitSecs, queryTimeoutSecs, restartBackoffBaseMs, restartBackoffMaxMs,
    restartBackoffResetSecs⟩

/-- The valid configuration of a JSON text. -/
def ofText (s : String) : Except EngineError Config :=
  match (Json.parse? s).bind ofJson? with
  | none => .error (.config .malformed)
  | some c =>
    match c.validate with
    | .ok () => .ok c
    | .error e => .error e

/-- The valid configuration of what was read from a path. -/
def ofFile (path : String) (content : Except ReadFailure ByteArray) : Except EngineError Config :=
  match content with
  | .error failure => .error (.config (.unreadable path failure.message))
  | .ok content =>
    match String.fromUTF8? content with
    | some s => ofText s
    | none => .error (.config (.unreadable path ReadFailure.notText.message))

end Config

end Alerting
