/-
# Mazes

A maze is a grid of cells, each a wall or open.  It starts fully walled
(`Maze.blank`), is opened cell by cell, and is only read afterwards: cell by
cell at positions, as the list of its open cells, or from the far end
(`Maze.lastOpen?`).
-/

import Labyrinth.Grid

namespace Labyrinth

/-- One unit of a maze.  It knows its column and its row, whether it is a wall,
and whether carving went through it. -/
structure Cell where
  x : Nat
  y : Nat
  isWall : Bool
  visited : Bool
deriving DecidableEq, Repr

/-- The position of a cell.  A column or a row above `2^31 - 1` is no coordinate, and such a
cell is put at the limit of the range; no puzzle has a side that long. -/
def Cell.position (c : Cell) : Position := .nearest c.x c.y

/-- Makes a cell open. -/
def Cell.opened (c : Cell) : Cell := { c with isWall := false }

/-- Makes a cell open and marks it as visited. -/
def Cell.entered (c : Cell) : Cell := { c with isWall := false, visited := true }

/-- A grid of cells. -/
abbrev Maze := Grid Cell

namespace Maze

/-- The maze of unvisited walls. -/
def blank (width height : Nat) : Maze := .ofFn width height fun x y => ⟨x, y, true, false⟩

/-- Whether a position lies inside the maze and is not a wall. -/
def isOpen (m : Maze) (p : Position) : Bool := (m.get? p).any (!·.isWall)

/-- Whether a position lies inside the maze and was not visited yet. -/
def isUnvisited (m : Maze) (p : Position) : Bool := (m.get? p).any (!·.visited)

/-- Opens the cell at a position. -/
def carve (m : Maze) (p : Position) : Maze := m.modify p Cell.opened

/-- Opens the cell at a position and marks it as visited. -/
def visit (m : Maze) (p : Position) : Maze := m.modify p Cell.entered

/-- The positions of the open cells, row by row. -/
def openCells (m : Maze) : List Position :=
  (m.toList.filter (!·.isWall)).map Cell.position

/-- The open cell that comes first from the bottom row upwards, each row from
right to left. -/
def lastOpen? (m : Maze) : Option Position :=
  (m.toList.reverse.find? (!·.isWall)).map Cell.position

/-- Whether the open cells make no maze at all: there are fewer than two, or
they all lie in one row or in one column. -/
def isDegenerate (m : Maze) : Bool :=
  match m.openCells with
  | [] | [_] => true
  | p :: ps => ps.all (·.y = p.y) || ps.all (·.x = p.x)

/-- The number of unvisited cells. -/
def unvisited (m : Maze) : Nat := m.count (!·.visited)

/-- Opening a cell does not visit it. -/
theorem unvisited_carve (m : Maze) (p : Position) : (m.carve p).unvisited = m.unvisited := by
  unfold carve unvisited
  cases h : m.get? p with
  | none => rw [Grid.modify_of_get?_eq_none h]
  | some c => exact Nat.add_right_cancel (Grid.count_modify h Cell.opened (!·.visited))

/-- A visit to an unvisited cell leaves one less of them. -/
theorem unvisited_visit {m : Maze} {p : Position} (h : m.isUnvisited p) :
    (m.visit p).unvisited + 1 = m.unvisited := by
  unfold isUnvisited at h
  rw [Option.any_eq_true] at h
  obtain ⟨c, hc, hv⟩ := h
  have := Grid.count_modify hc Cell.entered (!·.visited)
  simp only [hv] at this
  simpa [visit, unvisited, Cell.entered] using this

/-- Opening a cell changes what is read there and nowhere else. -/
theorem get?_carve (m : Maze) (p q : Position) :
    (m.carve p).get? q = if q = p then (m.get? p).map Cell.opened else m.get? q :=
  m.get?_modify p q _

/-- So what is unvisited stays so when a cell is opened. -/
@[simp]
theorem isUnvisited_carve (m : Maze) (p q : Position) :
    (m.carve p).isUnvisited q = m.isUnvisited q := by
  unfold isUnvisited
  rw [get?_carve]
  split
  · subst q; cases m.get? p <;> rfl
  · rfl

end Maze

end Labyrinth
