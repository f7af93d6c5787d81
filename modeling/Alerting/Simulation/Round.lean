/-!
# Rounds

Tasks take turns in rounds. Whoever waits for tasks looks after them at the end of a round only: by then up to
`turnsPerRound` tasks have had their turn, also those that come after the one that was waited for. A list of
things to do, one in each turn, falls into rounds (`inRounds`), of which the first may be shorter because others
take the turns before.
-/

namespace Alerting

/-- How many turns a round has. -/
def turnsPerRound : Nat := 61

/-- A list in parts of `n + 1`, with less in the last one. -/
def inParts {α : Type} (n : Nat) : List α → List (List α)
  | [] => []
  | x :: rest => (x :: rest.take n) :: inParts n (rest.drop n)
termination_by xs => xs.length
decreasing_by
  simp only [List.length_drop, List.length_cons]
  omega

/-- Nothing is lost in parts. -/
theorem flatten_inParts {α : Type} (n : Nat) (xs : List α) : (inParts n xs).flatten = xs := by
  fun_induction inParts n xs with
  | case1 => rfl
  | case2 x rest ih => simp [ih]

/-- The rounds in which some things are done after `before` other turns. -/
def inRounds {α : Type} (before : Nat) (xs : List α) : List (List α) :=
  let first := turnsPerRound - before % turnsPerRound
  xs.take first :: inParts (turnsPerRound - 1) (xs.drop first)

/-- Everything is done in some round. -/
theorem flatten_inRounds {α : Type} (before : Nat) (xs : List α) : (inRounds before xs).flatten = xs := by
  simp [inRounds, flatten_inParts]

end Alerting
