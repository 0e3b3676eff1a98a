/-
# Carving as a recursion

The stack of a carving stands for nested calls.  Here are the calls themselves:
`explore` shuffles the directions of a cell that was just entered, and `tryEach`
goes through them, opening the way to each cell that is unvisited when its turn
comes and exploring from there before it goes on.  Both hand on one maze and one
random register.

A frame on top of a stack does what `tryEach` does with its pending directions,
whatever lies below (`run_tryEach`).  So both ways of carving leave the same
maze, and they draw the same random numbers (`run_start_eq_recursion`).
-/

import Labyrinth.Carving

namespace Labyrinth
namespace Carving

/-- What carving works on: the maze so far and the random register. -/
structure Ground where
  maze : Maze
  random : Lcg
deriving DecidableEq

namespace Ground

/-- The ground with the cell two moves away made a part of the maze. -/
def dig (g : Ground) (p : Position) (d : Direction) : Ground := ⟨g.maze.dig p d, g.random⟩

/-- What carving may leave of the ground: it makes no visited cell unvisited. -/
abbrev Left (g : Ground) : Type := { left : Ground // left.maze.unvisited ≤ g.maze.unvisited }

/-- A dig leaves fewer unvisited cells, which bounds the recursion. -/
theorem unvisited_dig {g : Ground} {p : Position} {d : Direction}
    (h : g.maze.isUnvisited (p.offset d 2)) :
    (g.dig p d).maze.unvisited < g.maze.unvisited :=
  Nat.lt_of_succ_le (Nat.le_of_eq (Maze.unvisited_dig h))

/-- A carving on this ground, with a stack of cells that it is in. -/
def on (g : Ground) (stack : List Frame) : Carving := ⟨g.maze, g.random, stack⟩

end Ground

mutual

/-- Carves from a cell that was just entered: shuffles the four directions and
tries them. -/
def explore (g : Ground) (p : Position) : g.Left :=
  let (directions, random) := g.random.shuffle Direction.all
  tryEach ⟨g.maze, random⟩ p directions.toList
termination_by (g.maze.unvisited, 5)
decreasing_by
  simp only [Vector.length_toList]
  exact Prod.Lex.right _ (by omega)

/-- Tries the directions from a cell, in order. -/
def tryEach (g : Ground) (p : Position) (directions : List Direction) : g.Left :=
  match directions with
  | [] => ⟨g, Nat.le_refl _⟩
  | d :: ds =>
    if h : g.maze.isUnvisited (p.offset d 2) then
      have hlt := Ground.unvisited_dig h
      let explored := explore (g.dig p d) (p.offset d 2)
      have hle := Nat.le_trans explored.2 (Nat.le_of_lt hlt)
      let left := tryEach explored.1 p ds
      ⟨left.1, Nat.le_trans left.2 hle⟩
    else tryEach g p ds
termination_by (g.maze.unvisited, directions.length)
decreasing_by
  · exact Prod.Lex.left _ _ hlt
  · exact Prod.Lex.left _ _ (Nat.lt_of_le_of_lt explored.2 hlt)
  · exact Prod.Lex.right _ (Nat.lt_succ_self _)

end

/-- Recursive carving of a fully walled grid: opens and marks the cell `(1, 1)`,
if the grid has it, and explores from there. -/
def recursion (width height : Nat) (seed : String) : Ground :=
  let ground : Ground := ⟨Maze.blank width height, Lcg.ofSeed seed⟩
  match ground.maze.get? origin with
  | some _ => (explore ⟨ground.maze.visit origin, ground.random⟩ origin).1
  | none => ground

/-- Without directions nothing is dug. -/
theorem tryEach_nil (g : Ground) (p : Position) : (tryEach g p []).1 = g := by
  rw [tryEach]

/-- A direction to an unvisited cell is dug, and the cell is explored before the other
directions are tried. -/
theorem tryEach_of_isUnvisited {g : Ground} {p : Position} {d : Direction}
    (h : g.maze.isUnvisited (p.offset d 2)) (ds : List Direction) :
    (tryEach g p (d :: ds)).1 =
      (tryEach (explore (g.dig p d) (p.offset d 2)).1 p ds).1 := by
  rw [tryEach, dif_pos h]

/-- Any other direction is passed over. -/
theorem tryEach_of_not_isUnvisited {g : Ground} {p : Position} {d : Direction}
    (h : ¬g.maze.isUnvisited (p.offset d 2)) (ds : List Direction) :
    (tryEach g p (d :: ds)).1 = (tryEach g p ds).1 := by
  rw [tryEach, dif_neg h]

/-- Entering a cell leaves a frame with the directions that `explore` tries. -/
theorem enter_eq (g : Ground) (stack : List Frame) (p : Position) :
    enter g.maze g.random stack p =
      Ground.on ⟨g.maze.visit p, (g.random.shuffle Direction.all).2⟩
        (⟨p, (g.random.shuffle Direction.all).1.toList⟩ :: stack) :=
  rfl

/-- **A frame on top of a stack does what its directions say, and then the stack
goes on.** -/
theorem run_tryEach (g : Ground) (p : Position) (ds : List Direction) (stack : List Frame) :
    (g.on (⟨p, ds⟩ :: stack)).run = ((tryEach g p ds).1.on stack).run := by
  match ds with
  | [] =>
    rw [run_step (List.cons_ne_nil _ _), tryEach_nil]
    rfl
  | d :: ds =>
    rw [run_step (List.cons_ne_nil _ _)]
    by_cases h : g.maze.isUnvisited (p.offset d 2)
    · have hlt := Ground.unvisited_dig h
      have hle := (explore (g.dig p d) (p.offset d 2)).2
      calc (g.on (⟨p, d :: ds⟩ :: stack)).step.run
          = (enter (g.maze.carve (p.offset d 1)) g.random (⟨p, ds⟩ :: stack)
              (p.offset d 2)).run := by rw [Ground.on, step, if_pos h]
        _ = ((explore (g.dig p d) (p.offset d 2)).1.on (⟨p, ds⟩ :: stack)).run := by
            rw [enter_eq ⟨g.maze.carve (p.offset d 1), g.random⟩, run_tryEach, explore]
            rfl
        _ = ((tryEach g p (d :: ds)).1.on stack).run := by
            rw [run_tryEach, tryEach_of_isUnvisited h]
    · rw [Ground.on, step, if_neg h, tryEach_of_not_isUnvisited h]
      exact run_tryEach g p ds stack
termination_by (g.maze.unvisited, ds.length)
decreasing_by
  · exact Prod.Lex.left _ _ hlt
  · exact Prod.Lex.left _ _ (Nat.lt_of_le_of_lt hle hlt)
  · exact Prod.Lex.right _ (Nat.lt_succ_self _)

/-- **The stack and the recursion carve alike.**  For all sides and every seed,
the carving with a stack comes to its end with the maze and the random register
that the recursion leaves. -/
theorem run_start_eq_recursion (width height : Nat) (seed : String) :
    (start width height seed).run = (recursion width height seed).on [] := by
  rw [start, recursion]
  cases (Maze.blank width height).get? origin with
  | some _ =>
    dsimp only
    rw [enter_eq ⟨Maze.blank width height, Lcg.ofSeed seed⟩, run_tryEach,
      run_of_stack_eq_nil rfl, explore]
  | none => exact run_of_stack_eq_nil rfl

end Carving
end Labyrinth
