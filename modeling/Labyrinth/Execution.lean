/-
# Running a program

A program is run move by move.  It ends when a move would hit a wall or leave
the grid, when the character arrives at the goal, or when the moves are used
up.  An execution can be stepped, or run to its end at once
(`Execution.run`, `execute`); once it has ended, its outcome stays.
-/

import Labyrinth.Maze
import Labyrinth.Outcome

namespace Labyrinth

/-- Whether a move from a position lands on an open cell of the maze. -/
def Maze.canMove (m : Maze) (p : Position) (d : Direction) : Bool :=
  (p.offset? d 1).any m.isOpen

/-- What one step of an execution reports. -/
inductive Step
  /-- The move with this index was made, to this position, and more follow. -/
  | moved (index : Nat) (position : Position)
  /-- The execution is over. -/
  | finished (outcome : Outcome)
deriving DecidableEq, Repr

/-- The progress of a program: its moves and its goal, where the character is,
the path that led there, and the index of the next move. -/
structure Execution where
  program : List Direction
  goal : Position
  position : Position
  path : Array Position
  next : Nat
  result : Option Outcome
deriving DecidableEq

namespace Execution

/-- The execution of a program that has not begun. -/
def start (start goal : Position) (program : List Direction) : Execution :=
  ⟨program, goal, start, #[start], 0, none⟩

/-- Whether the execution is over. -/
def isFinished (e : Execution) : Bool := e.result.isSome

/-- Ends the execution. -/
def finish (e : Execution) (ending : Ending) : Step × Execution :=
  let outcome : Outcome := ⟨ending, e.path⟩
  (.finished outcome, { e with result := some outcome })

/-- The execution after one move of the character. -/
def advance (e : Execution) (d : Direction) : Execution :=
  let position := e.position.move d
  { e with position, path := e.path.push position, next := e.next + 1 }

/-- Runs the next move.  An execution that is over reports its outcome again. -/
def step (m : Maze) (e : Execution) : Step × Execution :=
  match e.result with
  | some outcome => (.finished outcome, e)
  | none =>
    match e.program[e.next]? with
    | none => e.finish .exhausted
    | some d =>
      if m.canMove e.position d then
        let after := e.advance d
        if after.position = after.goal then after.finish .reached
        else if after.next = after.program.length then after.finish .exhausted
        else (.moved e.next after.position, after)
      else e.finish (.blocked e.next)

/-- The number of moves that have not been run. -/
def remaining (e : Execution) : Nat := e.program.length - e.next

/-- **A step that does not end the execution uses up a move.** -/
theorem remaining_of_step_moved {m : Maze} {e e' : Execution} {i : Nat} {p : Position}
    (h : e.step m = (.moved i p, e')) : e'.remaining < e.remaining := by
  unfold step at h
  split at h
  · simp at h
  · split at h
    · simp [finish] at h
    · rename_i d hd
      have hlt := (List.getElem?_eq_some_iff.1 hd).1
      split at h
      · simp only [finish] at h
        split at h
        · simp at h
        · split at h
          · simp at h
          · simp only [Prod.mk.injEq] at h
            obtain ⟨-, rfl⟩ := h
            simp only [remaining, advance]
            omega
      · simp [finish] at h

/-- Runs the remaining moves. -/
def run (m : Maze) (e : Execution) : Outcome × Execution :=
  match _ : e.step m with
  | (.finished outcome, e) => (outcome, e)
  | (.moved .., e) => run m e
termination_by e.remaining
decreasing_by exact remaining_of_step_moved ‹_›

end Execution

/-- Runs a program from `start` and reports how it ends. -/
def execute (m : Maze) (start goal : Position) (program : List Direction) : Outcome :=
  ((Execution.start start goal program).run m).1

end Labyrinth
