/-
# Puzzles

A puzzle is a maze with the place where the character starts and the place of
the goal.  A generator makes the puzzle of a seed: it carves mazes until one of
them is fit to play, and the first one that is fit decides.
-/

import Labyrinth.Carving
import Labyrinth.Route

namespace Labyrinth

/-- A maze with its two end points. -/
structure Puzzle where
  maze : Maze
  start : Position
  goal : Position
deriving DecidableEq

/-- Why there is no puzzle. -/
inductive PuzzleError
  /-- A side is zero or above the 32-bit signed range. -/
  | badDimensions (width height : Nat)
  /-- No attempt gave a maze that is fit to play. -/
  | gaveUp (attempts : Nat)
deriving DecidableEq, Repr

/-- The wording of the error. -/
def PuzzleError.message : PuzzleError → String
  | badDimensions width height => s!"invalid maze dimensions {width}x{height}"
  | gaveUp attempts => s!"no valid maze found after {attempts} attempts"

namespace Puzzle

/-- A shortest program that solves the puzzle. -/
def solution? (p : Puzzle) : Option (List Direction) := p.maze.shortestRoute? p.start p.goal

/-- Where the goal goes: next to the bottom right corner if that cell is open,
else on the last open cell. -/
def goal? (maze : Maze) : Option Position :=
  let corner := Position.nearest (maze.width - 2) (maze.height - 2)
  if maze.isOpen corner then some corner else maze.lastOpen?

/-- The puzzle of a carved maze, if the maze is fit to play: it is not
degenerate, the character stands in an open cell, and the goal can be reached. -/
def ofMaze? (maze : Maze) : Option Puzzle :=
  if maze.isDegenerate || !maze.isOpen Carving.origin then none
  else do
    let goal ← goal? maze
    let puzzle : Puzzle := ⟨maze, Carving.origin, goal⟩
    let _ ← puzzle.solution?
    return puzzle

end Puzzle

/-- A generator of puzzles with the sides of its mazes and the number of mazes
that it carved for the last puzzle. -/
structure Generator where
  width : Nat
  height : Nat
  attempts : Nat
deriving DecidableEq, Repr

namespace Generator

/-- The number of mazes carved before giving up. -/
def maxAttempts : Nat := 1000

/-- The generator for the given sides, which must be positive and at most
`2147483647`, so that every cell has a position. -/
def create (width height : Nat) : Except PuzzleError Generator :=
  if width = 0 ∨ height = 0 ∨ 2147483647 < max width height then
    .error (.badDimensions width height)
  else .ok ⟨width, height, 0⟩

/-- The seed of an attempt: the given seed first, then the given seed followed
by the number of attempts made. -/
def attemptSeed (seed : String) : Nat → String
  | 0 => seed
  | made + 1 => seed ++ toString (made + 1)

/-- The puzzle of one attempt. -/
def attempt? (g : Generator) (seed : String) (made : Nat) : Option Puzzle :=
  Puzzle.ofMaze? (Maze.carved g.width g.height (attemptSeed seed made))

/-- Makes attempts until one of them gives a puzzle, and counts them: `made` were
made before, and `left` more may follow. -/
def makeAttempts (g : Generator) (seed : String) (made : Nat) :
    Nat → Except PuzzleError Puzzle × Generator
  | 0 => (.error (.gaveUp made), { g with attempts := made })
  | left + 1 =>
    match g.attempt? seed made with
    | some puzzle => (.ok puzzle, { g with attempts := made + 1 })
    | none => g.makeAttempts seed (made + 1) left

/-- Makes the puzzle of a seed and counts the attempts. -/
def generate (g : Generator) (seed : String) : Except PuzzleError Puzzle × Generator :=
  g.makeAttempts seed 0 maxAttempts

end Generator

/-- The puzzle for the given sides and seed. -/
def Puzzle.generate (width height : Nat) (seed : String) : Except PuzzleError Puzzle := do
  let g ← Generator.create width height
  (g.generate seed).1

end Labyrinth
