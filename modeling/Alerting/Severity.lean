import Alerting.Text.Digits

/-!
# Severities

A severity is a name. Names of the form `P<n>` are ranked by their number, the most urgent first, and all other
names come after them; names of one rank are ordered as texts (`Severity.le`).
-/

namespace Alerting

/-- How urgent an alert is, by its name. -/
structure Severity where
  name : String
  deriving DecidableEq, Repr

namespace Severity

/-- The severity of an alert that declares none. -/
def standard : Severity := ⟨"P2"⟩

instance : Inhabited Severity := ⟨standard⟩

/-- The rank of every severity that is not of the form `P<n>`. -/
def lastRank : Nat := Nat.pow 2 32 - 1

/-- The number of a severity `P<n>`, below `2 ^ 32`. -/
def number? (s : Severity) : Option Nat :=
  match s.name.toList with
  | 'P' :: cs => Text.readBelow? (Nat.pow 2 32) cs
  | 'p' :: cs => Text.readBelow? (Nat.pow 2 32) cs
  | _ => none

/-- The rank of a severity; the lower, the more urgent. -/
def rank (s : Severity) : Nat := s.number?.getD lastRank

def lt (a b : Severity) : Bool := a.rank < b.rank || (a.rank == b.rank && a.name < b.name)

def le (a b : Severity) : Bool := !lt b a

end Severity

end Alerting
