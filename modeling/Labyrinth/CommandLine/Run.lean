/-
# Running the command

The command makes the puzzle of a seed, runs the given program on it, and
prints: the maze and the outcome as text, the frames of an animation, or a
report in JSON.  Its answer is a value: the pieces of output in order, with a
pause before each frame, the line of an error, and the exit status.
-/

import Labyrinth.CommandLine.Options
import Labyrinth.CommandLine.Report
import Labyrinth.Drawing

namespace Labyrinth.CommandLine

/-- What the command prints and returns.  There is a pause before each frame. -/
structure Answer where
  status : Nat
  opening : String
  frames : List String
  closing : String
  error? : Option String
deriving DecidableEq, Repr

namespace Answer

/-- The answer that prints a text and succeeds. -/
def ofText (text : String) : Answer := ⟨0, text, [], "", none⟩

/-- The answer that reports an error. -/
def ofError (message : String) : Answer := ⟨1, "", [], "", some ("Error: " ++ message)⟩

/-- All that is printed. -/
def output (a : Answer) : String := a.opening ++ String.join a.frames ++ a.closing

end Answer

/-- The text of a line. -/
def line (text : String) : String := text ++ "\n"

/-- The line that names the seed, and the drawing below it. -/
def picture (s : Session) : String := line ("Maze seed: " ++ s.seed) ++ s.scene.render

/-- A frame of an animation: an empty line, the move that was run, and the
drawing after it. -/
def frame (program : List Direction) (index : Nat) (s : Session) : String :=
  let caption := program[index]?.map fun d =>
    "\n" ++ line s!"Step {index + 1}/{program.length}: {d.name}"
  caption.getD "" ++ s.scene.render

/-- The names of moves with commas between them, as a program is given. -/
def programText (moves : List Direction) : String := ",".intercalate (moves.map Direction.name)

/-- The line that shows a solution. -/
def solutionLine (moves : List Direction) : String :=
  line s!"Solution ({moves.length} moves): {programText moves}"

/-- Runs the program step by step.  Gives the frames, the outcome, and the
session at the end. -/
def animate (s : Session) : List String × Option Outcome × Session :=
  let index := s.currentStep
  match _ : s.step with
  | (none, s) => ([], none, s)
  | (some (.finished outcome), s) => ([frame s.program.blocks index s], some outcome, s)
  | (some (.moved ..), s) =>
    let (frames, outcome?, last) := animate s
    (frame s.program.blocks index s :: frames, outcome?, last)
termination_by s.remaining
decreasing_by exact Session.remaining_of_step_moved ‹_›

/-- The report of a session whose program ended with an outcome, or was not run. -/
def Report.ofSession (o : Options) (s : Session) (outcome? : Option Outcome) : Report where
  seed := s.seed
  puzzle := s.puzzle
  program := s.program.blocks
  outcome? := outcome?
  solution? := if o.has .solve then s.puzzle.solution? else none

/-- The exit status of a run: zero if the program reached the goal, or if there
was none. -/
def Report.status (r : Report) : Nat := if r.outcome?.all Outcome.isSuccess then 0 else 2

/-- The message, if a program was run, and the solution, if it was asked for. -/
def Report.summary (r : Report) : String :=
  (r.message?.map line).getD "" ++ (r.solution?.map solutionLine).getD ""

/-- What is printed below the drawings. -/
def Report.closing (o : Options) (r : Report) : String :=
  if o.has .json then line r.toJson.pretty else r.summary

/-- The answer that shows a session as it is. -/
def still (o : Options) (s : Session) (outcome? : Option Outcome) : Answer :=
  let r := Report.ofSession o s outcome?
  ⟨r.status, if o.has .json then "" else picture s, [], r.closing o, none⟩

/-- The answer that shows a session and then how its program runs. -/
def animated (o : Options) (s : Session) : Answer :=
  let (frames, outcome?, last) := animate s
  let r := Report.ofSession o last outcome?
  ⟨r.status, picture s, frames, r.closing o, none⟩

/-- Plays a session that has its program.  Without blocks there is nothing to
run, and only the maze is shown. -/
def play (o : Options) (s : Session) : Except SessionError Answer := do
  if s.program.isEmpty then return still o s none
  let s ← s.play
  if o.has .animate then return animated o s
  let (outcome?, s) := s.playOut
  return still o s outcome?

/-- Makes the session that the options ask for and plays it.  The invented seed
is used if none is given. -/
def run (o : Options) (invented : String) : Except SessionError Answer := do
  let s ← Session.create o.width o.height (o.seed?.getD invented)
  let s ← o.program.foldlM Session.push s
  play o s

/-- The answer to arguments that make no command. -/
def usageError : Answer :=
  ⟨2, "", [], "", some "error: invalid arguments\n\nUsage: pathquest [OPTIONS]\n"⟩

/-- The answer to a list of arguments. -/
def answer (args : List String) (invented : String) : Answer :=
  match parse? args with
  | none => usageError
  | some (.inform notice) => .ofText notice.text
  | some (.run o) =>
    match run o invented with
    | .ok answer => answer
    | .error e => .ofError e.message

end Labyrinth.CommandLine
