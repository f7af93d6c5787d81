/-!
# Fault centers

A fault center gathers the alerts of some rules of a tenant and has settings of its own. The events and the
settings of a fault center are kept under keys made of the tenant and the center.
-/

namespace Alerting

/-- The settings that the rules of a fault center share. -/
structure FaultCenter where
  id : String
  name : String
  /-- The grace period in seconds before a missing alert recovers; zero means none is set. -/
  recoverWaitSecs : Nat
  deriving DecidableEq, Repr

/-- The key of the events of a fault center. -/
def eventsKey (tenant center : String) : String := tenant ++ ":faultCenter:" ++ center ++ ".events"

/-- The key of the settings of a fault center. -/
def infoKey (tenant center : String) : String := tenant ++ ":faultCenter:" ++ center ++ ".info"

end Alerting
