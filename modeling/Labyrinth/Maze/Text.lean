/-
# Mazes as rows of text

A maze is written as one text per row, `#` for a wall and `.` for an open cell.
In the other direction the rows of a drawing give the wall layout: the first row
says how wide the maze is, a point opens its cell, and whatever else stands
there, or is missing, is a wall.
-/

import Labyrinth.Maze

namespace Labyrinth

/-- The mark of a cell in a row of text. -/
def Cell.mark (c : Cell) : Char := if c.isWall then '#' else '.'

namespace Maze

/-- The rows of a maze, the top row first. -/
def toRows (m : Maze) : List String :=
  m.rows.toList.map fun row => String.ofList (row.toList.map Cell.mark)

/-- The maze drawn by rows of text. -/
def ofRows (rows : List String) : Maze :=
  let marks := rows.map String.toList
  .ofFn (marks.headD []).length rows.length fun x y =>
    ⟨x, y, (marks[y]?.bind (·[x]?)) ≠ some '.', false⟩

end Maze

end Labyrinth
