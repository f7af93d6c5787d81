import Alerting.Dispatch.Finding
import Alerting.Engine.Basic
import Alerting.Template

/-!
# Working off findings

`Engine.workOff` turns the findings on one datasource into an `Outcome`: which fingerprints are current, which are
suppressed, and the events to store. For every match and every expression that does not match, the stored record
is looked up; a look-up that fails ends the work, and nothing of the outcome is used. `Engine.store` then writes
the events one by one; a write that fails is noted and does not stop the others.
-/

namespace Alerting

/-- What one datasource contributes to a tick. -/
structure Outcome where
  /-- Fingerprints that meet the rule's condition. -/
  fingerprints : List String
  /-- Fingerprints that match and are outranked by a more urgent severity. -/
  suppressed : List String
  events : List Event
  deriving DecidableEq

namespace Outcome

def empty : Outcome := ⟨[], [], []⟩

instance : Inhabited Outcome := ⟨empty⟩

end Outcome

namespace Observation

/-- The annotations of an event: the rendered template, and the messages on lines of their own. -/
def annotate (rule : Rule) (messages : List String) (e : Event) : Event :=
  let text := Template.render rule.annotations e.labels
  let extra := String.intercalate "\n" messages
  { e with annotations := if messages.isEmpty then text else if text.isEmpty then extra else text ++ "\n" ++ extra }

/-- The unconfirmed event of an observation; a suppressed one counts as already notified. -/
def draft (o : Observation) (rule : Rule) (datasource id : String) (now : Instant) : Event :=
  { Event.draft rule datasource o.fingerprint o.severity o.labels id now with
    searchQuery := o.searchQuery
    lastSendTime := if o.suppressed then some now else none }

/-- The event to store for an observation, given the stored record of its fingerprint. -/
def event (o : Observation) (rule : Rule) (datasource id : String) (now : Instant) (cached : Option Event) : Event :=
  annotate rule o.messages ((o.draft rule datasource id now).mergeOver cached (.ofSecs rule.forDurationSecs) now)

end Observation

/-- A live record that has seen another value. -/
def Event.refreshed (e : Event) (rule : Rule) (value : String) (now : Instant) : Event :=
  Observation.annotate rule [] { e.setValue value with lastEvalTime := now }

namespace Engine

/-- Works off findings in order, adding to an outcome. -/
def workOff (rule : Rule) (datasource : String) (now : Instant) :
    Engine → Outcome → List Finding → Result (Except EngineError Outcome)
  | e, out, [] => (.ok out, e)
  | e, out, .malformed severity error :: rest =>
    workOff rule datasource now (e.note (.malformedExpression rule.id severity error)) out rest
  | e, out, .configured fingerprint :: rest =>
    workOff rule datasource now e { out with fingerprints := out.fingerprints ++ [fingerprint] } rest
  | e, out, .unmatched fingerprint value :: rest =>
    match e.get rule.tenantId rule.faultCenterId fingerprint with
    | (.error error, e) => (.error error, e)
    | (.ok cached, e) =>
      let refreshed := (cached.filter fun c => !c.status.isTerminal).map fun c => c.refreshed rule value now
      workOff rule datasource now e { out with events := out.events ++ refreshed.toList } rest
  | e, out, .matched o :: rest =>
    match e.get rule.tenantId rule.faultCenterId o.fingerprint with
    | (.error error, e) => (.error error, e)
    | (.ok cached, e) =>
      let (id, e) := e.mint
      let event := o.event rule datasource id now cached
      workOff rule datasource now e
        { fingerprints := if o.suppressed then out.fingerprints else out.fingerprints ++ [o.fingerprint]
          suppressed := if o.suppressed then out.suppressed ++ [o.fingerprint] else out.suppressed
          events := out.events ++ [event] } rest

/-- Stores events in order, and counts those that were stored. -/
def store (rule : String) : Engine → List Event → Result Nat
  | e, [] => (0, e)
  | e, event :: rest =>
    match e.push event with
    | (.ok (), e) =>
      let (n, e) := store rule e rest
      (n + 1, e)
    | (.error error, e) => store rule (e.note (.pushFailed rule event.fingerprint error)) rest

end Engine

end Alerting
