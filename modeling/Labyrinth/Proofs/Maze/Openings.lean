/-
# Mazes opened cell by cell

A maze is made from walls by openings, one after the other and at any positions: a
cell becomes open, and when it is visited it is marked as well.  Nothing else happens
to a cell, so neither the order of the openings nor their repetitions matter.  Inside
the grid a cell is open at the end if one of the openings was at its position, and
marked if one of them visited it (`Maze.get?_ofOpenings`).  The sides of the grid and
the coordinates in its cells are those of the grid of walls (`Maze.shaped_ofOpenings`).
-/

import Labyrinth.Proofs.Maze.OpenCells

namespace Labyrinth

/-- One way to open a cell. -/
inductive Opening
  /-- The cell becomes open. -/
  | carve (p : Position)
  /-- The cell becomes open and is marked as visited. -/
  | visit (p : Position)
deriving DecidableEq, Repr

namespace Opening

/-- Where the cell is opened. -/
def position : Opening → Position
  | carve p | visit p => p

/-- Opens the cell; outside the maze nothing happens. -/
def make (m : Maze) : Opening → Maze
  | carve p => m.carve p
  | visit p => m.visit p

/-- What becomes of the cell. -/
def change : Opening → Cell → Cell
  | carve _ => Cell.opened
  | visit _ => Cell.entered

/-- An opening changes the cell at its position. -/
theorem make_eq_modify (m : Maze) (o : Opening) : o.make m = m.modify o.position o.change := by
  cases o <;> rfl

end Opening

variable {m : Maze} {p q : Position} {o : Opening} {openings : List Opening} {width height : Nat}

/-! ## One cell -/

/-- What openings leave of a cell at a position. -/
def Cell.after (openings : List Opening) (p : Position) (c : Cell) : Cell :=
  { c with
    isWall := c.isWall && openings.all fun o => o.position ≠ p
    visited := c.visited || openings.contains (.visit p) }

/-- Without openings a cell stays as it is. -/
@[simp]
theorem Cell.after_nil (p : Position) (c : Cell) : c.after [] p = c := by
  simp [after]

/-- The first opening goes before the others. -/
theorem Cell.after_cons (o : Opening) (openings : List Opening) (p : Position) (c : Cell) :
    c.after (o :: openings) p = (c.after [o] p).after openings p := by
  simp [after, Bool.and_assoc, Bool.or_assoc]

/-- An opening somewhere else leaves a cell as it is. -/
theorem Cell.after_of_ne (h : q ≠ o.position) (c : Cell) : c.after [o] q = c := by
  cases o <;> simp_all [after, Opening.position, eq_comm]

/-- An opening at its position changes the cell. -/
theorem Cell.after_position (o : Opening) (c : Cell) : c.after [o] o.position = o.change c := by
  cases o <;> simp [after, Opening.position, Opening.change, opened, entered]

namespace Maze

/-! ## All cells -/

/-- **An opening is seen at its own position and nowhere else.** -/
theorem get?_make (m : Maze) (o : Opening) (q : Position) :
    (o.make m).get? q = (m.get? q).map (Cell.after [o] q) := by
  rw [Opening.make_eq_modify, Grid.get?_modify]
  split
  · rename_i hq
    rw [hq, funext (Cell.after_position o)]
  · rename_i hq
    rw [funext (Cell.after_of_ne hq), Option.map_id']

/-- **Openings are seen cell by cell**: at every position the cell that was there went
through those of its position. -/
theorem get?_foldl_make (m : Maze) (openings : List Opening) (q : Position) :
    (openings.foldl Opening.make m).get? q = (m.get? q).map (Cell.after openings q) := by
  induction openings generalizing m with
  | nil => rw [List.foldl_nil, funext (Cell.after_nil q), Option.map_id']
  | cons o openings ih =>
    rw [List.foldl_cons, ih, get?_make, Option.map_map, funext (Cell.after_cons o openings q)]
    rfl

/-- The maze that openings make of a grid of walls. -/
def ofOpenings (width height : Nat) (openings : List Opening) : Maze :=
  openings.foldl Opening.make (blank width height)

/-- **What openings leave of a grid of walls:** a wall where none of them was, and a
mark where one of them was a visit. -/
theorem get?_ofOpenings (width height : Nat) (openings : List Opening) (q : Position) :
    (ofOpenings width height openings).get? q =
      if (0 ≤ q.x ∧ q.x < width) ∧ (0 ≤ q.y ∧ q.y < height) then
        some ⟨q.x.toNat, q.y.toNat, openings.all fun o => o.position ≠ q,
          openings.contains (.visit q)⟩
      else none := by
  rw [ofOpenings, get?_foldl_make, blank, Grid.get?_ofFn]
  split
  · rw [Option.map_some, Cell.after, Bool.true_and, Bool.false_or]
  · rfl

/-! ## The shape -/

/-- A maze with these sides whose cells know where they are. -/
structure Shaped (width height : Nat) (m : Maze) : Prop where
  width_eq : m.width = width
  height_eq : m.height = height
  isLaidOut : m.IsLaidOut

/-- An opening changes neither the sides nor the coordinates in the cells. -/
theorem Shaped.make (h : m.Shaped width height) (o : Opening) :
    (o.make m).Shaped width height := by
  rw [Opening.make_eq_modify]
  have hcoordinates : ∀ c : Cell, (o.change c).x = c.x ∧ (o.change c).y = c.y := by
    cases o <;> exact fun _ => ⟨rfl, rfl⟩
  exact ⟨(Grid.width_modify ..).trans h.width_eq, (Grid.height_modify ..).trans h.height_eq,
    h.isLaidOut.modify hcoordinates o.position⟩

/-- **However a maze is opened, it keeps its shape.** -/
theorem shaped_ofOpenings (width height : Nat) (openings : List Opening) :
    (ofOpenings width height openings).Shaped width height :=
  List.foldlRecOn openings Opening.make ⟨rfl, rfl, isLaidOut_blank width height⟩
    fun _ hm o _ => hm.make o

/-- Openings keep the width. -/
@[simp]
theorem width_ofOpenings (width height : Nat) (openings : List Opening) :
    (ofOpenings width height openings).width = width :=
  (shaped_ofOpenings width height openings).width_eq

/-- Openings keep the height. -/
@[simp]
theorem height_ofOpenings (width height : Nat) (openings : List Opening) :
    (ofOpenings width height openings).height = height :=
  (shaped_ofOpenings width height openings).height_eq

/-- What openings make is laid out. -/
theorem isLaidOut_ofOpenings (width height : Nat) (openings : List Opening) :
    (ofOpenings width height openings).IsLaidOut :=
  (shaped_ofOpenings width height openings).isLaidOut

/-- It fits if its sides are in range. -/
theorem fits_ofOpenings (hw : width ≤ 2147483647) (hh : height ≤ 2147483647)
    (openings : List Opening) : (ofOpenings width height openings).Fits := by
  rw [Fits, width_ofOpenings, height_ofOpenings]
  exact ⟨hw, hh⟩

end Maze
end Labyrinth
