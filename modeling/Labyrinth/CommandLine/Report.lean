/-
# Reports

Positions, mazes, programs, and outcomes as JSON values, and the report of a run
that is made of them.
-/

import Labyrinth.Json
import Labyrinth.Maze.Text
import Labyrinth.Session

namespace Labyrinth

/-- A position as an object. -/
def Position.toJson (p : Position) : Json := .obj [("x", .num p.x), ("y", .num p.y)]

/-- A direction by its name. -/
def Direction.toJson (d : Direction) : Json := .str d.name

/-- A list of directions. -/
def Direction.listToJson (ds : List Direction) : Json := .arr (ds.map toJson)

/-- A maze by its size and its rows; what carving visited is left out. -/
def Maze.toJson (m : Maze) : Json :=
  .obj [("width", .num m.width), ("height", .num m.height), ("rows", .arr (m.toRows.map .str))]

/-- A program by its blocks; its history is left out. -/
def Program.toJson (p : Program) : Json := .obj [("blocks", Direction.listToJson p.blocks)]

/-- An outcome as an object with the path and, for a blocked move, its index. -/
def Outcome.toJson (o : Outcome) : Json :=
  let path := ("path", Json.arr (o.path.toList.map Position.toJson))
  match o.ending with
  | .reached => .obj [("outcome", .str "success"), path]
  | .blocked failedStep =>
    .obj [("outcome", .str "blocked"), path, ("failed_step", .num failedStep)]
  | .exhausted => .obj [("outcome", .str "exhausted"), path]

namespace CommandLine

/-- The report of a run.  Without a program there is no outcome and no message,
and the solution is there only if it was asked for. -/
structure Report where
  seed : String
  puzzle : Puzzle
  program : List Direction
  outcome? : Option Outcome
  solution? : Option (List Direction)
deriving DecidableEq

namespace Report

/-- What the player is told, if a program was run. -/
def message? (r : Report) : Option String := r.outcome?.map (·.message r.program)

/-- The report as an object; what is absent has no field. -/
def toJson (r : Report) : Json :=
  .obj <|
    [("seed", .str r.seed),
      ("maze", r.puzzle.maze.toJson),
      ("start", r.puzzle.start.toJson),
      ("end", r.puzzle.goal.toJson),
      ("program", Direction.listToJson r.program)] ++
    (r.outcome?.map fun o => ("result", o.toJson)).toList ++
    (r.message?.map fun m => ("message", .str m)).toList ++
    (r.solution?.map fun ds => ("solution", Direction.listToJson ds)).toList

end Report

end CommandLine

end Labyrinth
