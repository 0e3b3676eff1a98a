/-
# Carving a maze

Carving is a randomized depth-first walk over the cells that lie two moves
apart.  It starts at `(1, 1)`; on entering a cell it shuffles the four
directions, and then it goes, direction by direction, to each cell two moves
away that it has not entered yet, opening the cell in between.

The walk keeps its own stack: the cells that it is in, each with the directions
that it still has to try.  It ends because every step spends either an unvisited
cell or a direction of the stack (`Carving.weight_step`).
-/

import Labyrinth.Maze
import Labyrinth.Random.Shuffle

namespace Labyrinth

/-- A cell that carving is in, with the directions to try from it. -/
structure Frame where
  position : Position
  pending : List Direction
deriving DecidableEq, Repr

/-- A carving in progress: the maze so far, the random register, and the cells
it is in, the last one entered first. -/
structure Carving where
  maze : Maze
  random : Lcg
  stack : List Frame
deriving DecidableEq

/-- Makes the cell two moves away a part of the maze: opens the cell before it,
and opens and marks the cell itself. -/
def Maze.dig (m : Maze) (p : Position) (d : Direction) : Maze :=
  (m.carve (p.offset d 1)).visit (p.offset d 2)

/-- A dig visits one cell more: the cell it leads to, and not the one in between. -/
theorem Maze.unvisited_dig {m : Maze} {p : Position} {d : Direction}
    (h : m.isUnvisited (p.offset d 2)) : (m.dig p d).unvisited + 1 = m.unvisited := by
  rw [← isUnvisited_carve m (p.offset d 1)] at h
  have hv := unvisited_visit h
  rwa [unvisited_carve] at hv

namespace Carving

/-- Where carving starts, and where the character of a puzzle stands. -/
def origin : Position where
  x := 1
  y := 1

/-- Enters a cell: opens and marks it, and shuffles the directions to go on. -/
def enter (maze : Maze) (random : Lcg) (stack : List Frame) (p : Position) : Carving :=
  let (directions, random) := random.shuffle Direction.all
  ⟨maze.visit p, random, ⟨p, directions.toList⟩ :: stack⟩

/-- The carving of a fully walled grid at its start.  A grid without the cell
`(1, 1)` has nothing to carve. -/
def start (width height : Nat) (seed : String) : Carving :=
  let maze := Maze.blank width height
  let random := Lcg.ofSeed seed
  match maze.get? origin with
  | some _ => enter maze random [] origin
  | none => ⟨maze, random, []⟩

/-- Tries the next direction of the last cell entered, or leaves that cell when
none is left. -/
def step : Carving → Carving
  | ⟨maze, random, []⟩ => ⟨maze, random, []⟩
  | ⟨maze, random, ⟨_, []⟩ :: stack⟩ => ⟨maze, random, stack⟩
  | ⟨maze, random, ⟨p, d :: pending⟩ :: stack⟩ =>
    if maze.isUnvisited (p.offset d 2) then
      enter (maze.carve (p.offset d 1)) random (⟨p, pending⟩ :: stack) (p.offset d 2)
    else ⟨maze, random, ⟨p, pending⟩ :: stack⟩

/-- The directions that a stack has still to try, and its cells still to leave. -/
def pendingWork : List Frame → Nat
  | [] => 0
  | f :: stack => f.pending.length + 1 + pendingWork stack

/-- What is left to spend.  An unvisited cell is worth its frame with four
directions, and more. -/
def weight (c : Carving) : Nat := 6 * c.maze.unvisited + pendingWork c.stack

/-- **Every step of a carving spends something.** -/
theorem weight_step {c : Carving} (h : c.stack ≠ []) : c.step.weight < c.weight := by
  obtain ⟨maze, random, stack⟩ := c
  match stack with
  | [] => exact absurd rfl h
  | ⟨p, []⟩ :: stack => simp [step, weight, pendingWork]
  | ⟨p, d :: pending⟩ :: stack =>
    rw [step]
    split
    · rename_i hu
      have hv := Maze.unvisited_dig hu
      rw [Maze.dig] at hv
      simp only [enter, weight, pendingWork, List.length_cons, Vector.length_toList]
      omega
    · simp [weight, pendingWork]

/-- Carves on until every cell has been left. -/
def run (c : Carving) : Carving :=
  if _ : c.stack = [] then c else run c.step
termination_by c.weight
decreasing_by exact weight_step ‹_›

/-- A carving without cells to leave is over. -/
theorem run_of_stack_eq_nil {c : Carving} (h : c.stack = []) : c.run = c := by
  rw [run, dif_pos h]

/-- Otherwise it goes on from its next step. -/
theorem run_step {c : Carving} (h : c.stack ≠ []) : c.run = c.step.run := by
  rw [run, dif_neg h]

end Carving

/-- The carved maze of a seed. -/
def Maze.carved (width height : Nat) (seed : String) : Maze :=
  (Carving.start width height seed).run.maze

end Labyrinth
