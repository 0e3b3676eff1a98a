/-
# Drawings

A maze is drawn with one character per cell and one line per row: `@` for the
character, `*` for the goal, `#` for a wall, `.` for a cell of the path, and a
blank for every other open cell.  The character hides the goal, and both hide
what is under them.
-/

import Labyrinth.Session

namespace Labyrinth

/-- What there is to show on a maze. -/
structure Scene where
  maze : Maze
  character : Position
  goal : Position
  path : Array Position

namespace Scene

/-- The mark of a cell. -/
def mark (s : Scene) (c : Cell) : Char :=
  if c.position = s.character then '@'
  else if c.position = s.goal then '*'
  else if c.isWall then '#'
  else if s.path.contains c.position then '.'
  else ' '

/-- The lines of the drawing, the top row first. -/
def lines (s : Scene) : List (List Char) :=
  s.maze.rows.toList.map fun row => row.toList.map s.mark

/-- The drawing as one text, each line ended by a line feed. -/
def render (s : Scene) : String := String.ofList (s.lines.flatMap (· ++ ['\n']))

end Scene

/-- What a session shows. -/
def Session.scene (s : Session) : Scene := ⟨s.puzzle.maze, s.character, s.puzzle.goal, s.path⟩

end Labyrinth
