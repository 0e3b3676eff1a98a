/-
# Outcomes

How a program ends, and what the player is told about it.
-/

import Labyrinth.Position

namespace Labyrinth

/-- How a program ended. -/
inductive Ending
  /-- The character arrived at the goal; later moves were not run. -/
  | reached
  /-- The move with this index would have hit a wall or left the grid. -/
  | blocked (failedStep : Nat)
  /-- All moves were run, and the character is not at the goal. -/
  | exhausted
deriving DecidableEq, Repr

/-- The outcome of a program: how it ended, and the positions that the character
went through, its start first. -/
structure Outcome where
  ending : Ending
  path : Array Position
deriving DecidableEq, Repr

namespace Outcome

/-- Whether the character arrived at the goal. -/
def isSuccess (o : Outcome) : Bool := o.ending = .reached

/-- What the player is told about the outcome of a program.  The direction of a
blocked move is left out if the program has no such move. -/
def message (program : List Direction) (o : Outcome) : String :=
  match o.ending with
  | .reached => "You've reached the fruit! Well done!"
  | .blocked failedStep =>
    let direction := (program[failedStep]?.map (" " ++ ·.name)).getD ""
    s!"Can't move{direction} from current position. Program stopped at step {failedStep + 1}."
  | .exhausted => "Program finished, but you didn't reach the fruit. Try adding more steps!"

end Outcome

end Labyrinth
