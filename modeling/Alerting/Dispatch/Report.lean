import Alerting.Dispatch.Outcome

/-!
# Dispatching a rule

Every datasource of a rule is asked, and each one that answers is worked off and stored as soon as its answer is
there (`Engine.complete`). The completions are gathered in the order in which they come: a failed datasource is
noted and only counted, and a panic ends the dispatch (`Gathering.add`). The report does not depend on that order
(its two sets are sorted and have no duplicates).
-/

namespace Alerting

/-- The summary of a dispatch. -/
structure Report where
  fingerprints : List String
  /-- The suppressed fingerprints that are not current. -/
  suppressed : List String
  queried : Nat
  /-- How many datasources were passed over or failed. -/
  failed : Nat
  /-- How many events were stored. -/
  pushed : Nat
  deriving DecidableEq

/-! ## One datasource -/

/-- What came of asking a datasource. -/
structure Reading where
  datasource : String
  asked : Instant
  /-- How many milliseconds after the beginning of the dispatch it was settled. -/
  elapsed : Nat
  reply : Except Failure Answer

/-- How the evaluation of a datasource ended. -/
inductive Completion
  | answered (outcome : Outcome) (pushed : Nat)
  | failed (error : EngineError)
  | panicked (panic : Panic)
  deriving DecidableEq

/-- Works off the answer of a datasource and stores its events. -/
def Engine.complete (e : Engine) (rule : Rule) (datasource : String) (now : Instant) (reply : Except Failure Answer) :
    Engine.Result Completion :=
  match reply with
  | .error (.error error) => (.failed error, e)
  | .error (.panic p) => (.panicked p, e)
  | .ok answer =>
    match e.workOff rule datasource now .empty (rule.findings answer) with
    | (.error error, e) => (.failed error, e)
    | (.ok outcome, e) =>
      let (pushed, e) := e.store rule.id outcome.events
      (.answered outcome pushed, e)

/-! ## All datasources -/

/-- A set of texts. -/
abbrev TextSet := Table Unit

/-- The set with some texts more, the empty text left out. -/
def TextSet.addAll (s : TextSet) (texts : List String) : TextSet :=
  texts.foldl (fun s t => if t.isEmpty then s else s.insert t ()) s

/-- What the datasources have come to so far. -/
structure Gathering where
  fingerprints : TextSet
  suppressed : TextSet
  queried : Nat
  failed : Nat
  pushed : Nat
  /-- The panic that ended the dispatch. -/
  panic : Option Panic
  deriving DecidableEq

namespace Gathering

def empty : Gathering := ⟨.empty, .empty, 0, 0, 0, none⟩

instance : Inhabited Gathering := ⟨empty⟩

/-- Takes in the completion of a datasource; after a panic nothing more is taken in. -/
def add (g : Gathering) (e : Engine) (rule datasource : String) (c : Completion) : Engine.Result Gathering :=
  if g.panic.isSome then (g, e)
  else
    match c with
    | .answered outcome pushed =>
      ({ g with
        fingerprints := g.fingerprints.addAll outcome.fingerprints
        suppressed := g.suppressed.addAll outcome.suppressed
        queried := g.queried + 1
        pushed := g.pushed + pushed }, e)
    | .failed error => ({ g with failed := g.failed + 1 }, e.note (.datasourceFailed rule datasource error))
    | .panicked p => ({ g with panic := some p }, e)

/-- The report, or the panic that came instead. -/
def report (g : Gathering) : Except Panic Report :=
  match g.panic with
  | some p => .error p
  | none =>
    .ok
      { fingerprints := g.fingerprints.keys
        suppressed := (g.suppressed.filter fun t _ => !g.fingerprints.contains t).keys
        queried := g.queried
        failed := g.failed
        pushed := g.pushed }

end Gathering

namespace Engine

/-- The engine at a later time. -/
def atTime (e : Engine) (time : Nat) : Engine := { e with time := time }

/-- Works off readings in the order in which they were settled, from the time `start` on. After a panic, only
those settled in the same millisecond are still worked off. -/
def gather (rule : Rule) (start : Nat) : Engine → Gathering → (last : Nat) → List Reading → Result Gathering
  | e, g, _, [] => (g, e)
  | e, g, last, r :: rest =>
    if g.panic.isSome && last < r.elapsed then (g, e)
    else
      let (c, e) := (e.atTime (start + r.elapsed)).complete rule r.datasource r.asked r.reply
      let (g', e) := g.add e rule.id r.datasource c
      gather rule start e g' r.elapsed rest

/-- Dispatches a rule, given what came of asking its datasources, in the order in which they were settled. -/
def dispatch (e : Engine) (rule : Rule) (readings : List Reading) : Result (Except Panic Report) :=
  let (g, e) := gather rule e.time e .empty 0 readings
  (g.report, e)

end Engine

end Alerting
