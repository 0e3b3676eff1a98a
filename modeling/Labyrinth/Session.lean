/-
# Sessions

A session ties a puzzle to the program that the player puts together and to the
execution that is shown.  While the program runs, it cannot be changed and the
maze cannot be replaced.  An operation that is refused gives an error and no new
session, so what it was asked to change stays as it was.
-/

import Labyrinth.Execution
import Labyrinth.Program
import Labyrinth.Puzzle

namespace Labyrinth

/-- Why an operation is refused. -/
inductive SessionError
  /-- The program is running. -/
  | running
  /-- There is nothing to run. -/
  | nothingToRun
  /-- There is no block at this index. -/
  | noBlockAt (index : Nat)
  /-- There is no puzzle for the seed. -/
  | noPuzzle (error : PuzzleError)
deriving DecidableEq, Repr

namespace SessionError

/-- The wording of the error. -/
def message : SessionError → String
  | running => "the program is running"
  | nothingToRun => "the program is empty"
  | noBlockAt index => s!"no block at position {index}"
  | noPuzzle error => error.message

/-- The error of the generator behind the refusal, if there is one. -/
def cause? : SessionError → Option PuzzleError
  | noPuzzle error => some error
  | _ => none

end SessionError

/-- What a session is doing. -/
inductive Phase
  /-- Waiting for the player, also after a program has used up its moves. -/
  | idle
  /-- Running the program. -/
  | running
  /-- The character arrived at the goal. -/
  | solved
  /-- The character was blocked. -/
  | blocked
deriving DecidableEq, Repr

/-- The phase after a program has ended. -/
def Ending.phase : Ending → Phase
  | reached => .solved
  | blocked _ => .blocked
  | exhausted => .idle

/-- A game in progress: the puzzle of the current seed, the program, where the
character is shown and the path that it is shown on, and the last execution that
was not dropped. -/
structure Session where
  seed : String
  width : Nat
  height : Nat
  puzzle : Puzzle
  program : Program
  phase : Phase
  character : Position
  path : Array Position
  execution? : Option Execution
deriving DecidableEq

namespace Session

/-- The session that begins with a puzzle: no program, the character at the
start. -/
def ofPuzzle (width height : Nat) (seed : String) (puzzle : Puzzle) : Session where
  seed := seed
  width := width
  height := height
  puzzle := puzzle
  program := .empty
  phase := .idle
  character := puzzle.start
  path := #[puzzle.start]
  execution? := none

/-- The session for the given sides and seed. -/
def create (width height : Nat) (seed : String) : Except SessionError Session :=
  match Puzzle.generate width height seed with
  | .ok puzzle => .ok (ofPuzzle width height seed puzzle)
  | .error e => .error (.noPuzzle e)

/-- Whether the program is running. -/
def isRunning (s : Session) : Bool := s.phase = .running

/-- The execution in progress. -/
def running? (s : Session) : Option Execution := if s.isRunning then s.execution? else none

/-- The index of the move that the execution is at. -/
def currentStep (s : Session) : Nat := (s.execution?.map (·.next)).getD 0

/-- The status line. -/
def status (s : Session) : String :=
  match s.phase with
  | .idle => "Ready to start"
  | .running => s!"Step {s.currentStep + 1}/{s.program.length}"
  | .solved => "Success!"
  | .blocked => "Error occurred"

/-- Puts the character back to the start and drops an execution in progress.
The program stays. -/
def rewind (s : Session) : Session :=
  { s with
    execution? := if s.isRunning then none else s.execution?
    phase := .idle
    character := s.puzzle.start
    path := #[s.puzzle.start] }

/-- Drops the execution, whether it is in progress or over, and puts the
character back to the start. -/
def cancel (s : Session) : Session := { s with execution? := none }.rewind

/-! ## Operations that a running program refuses -/

/-- Goes on with an operation unless the program is running. -/
@[macro_inline]
def whenIdle {α : Type} (s : Session) (result : Except SessionError α) : Except SessionError α :=
  if s.isRunning then .error .running else result

/-- Replaces the puzzle by the one of another seed and drops the program. -/
def renew (s : Session) (seed : String) : Except SessionError Session :=
  s.whenIdle <|
    match Puzzle.generate s.width s.height seed with
    | .ok puzzle => .ok { s with puzzle, seed, program := .empty, execution? := none }.rewind
    | .error e => .error (.noPuzzle e)

/-- Adds a block at the end of the program. -/
def push (s : Session) (block : Direction) : Except SessionError Session :=
  s.whenIdle <| .ok { s with program := s.program.push block }

/-- Takes the block at an index out of the program. -/
def remove (s : Session) (index : Nat) : Except SessionError (Direction × Session) :=
  s.whenIdle <|
    match s.program.remove? index with
    | some (block, program) => .ok (block, { s with program })
    | none => .error (.noBlockAt index)

/-- Moves a block to another place of the program.  If a block is missing, the
greater of the two indexes is the one that has none. -/
def reorder (s : Session) (source target : Nat) : Except SessionError Session :=
  s.whenIdle <|
    match s.program.reorder? source target with
    | some program => .ok { s with program }
    | none => .error (.noBlockAt (max source target))

/-- Takes all blocks out of the program and puts the character back to the
start. -/
def clear (s : Session) : Except SessionError Session :=
  s.whenIdle <| .ok { s with program := s.program.clear }.rewind

/-- Takes the last change of the program back. -/
def undo (s : Session) : Except SessionError Session :=
  s.whenIdle <| .ok { s with program := s.program.undo }

/-- Makes the last change that was taken back again. -/
def redo (s : Session) : Except SessionError Session :=
  s.whenIdle <| .ok { s with program := s.program.redo }

/-- Starts to run the program from the start. -/
def play (s : Session) : Except SessionError Session :=
  s.whenIdle <|
    if s.program.isEmpty then .error .nothingToRun
    else
      let execution := Execution.start s.puzzle.start s.puzzle.goal s.program.blocks
      .ok { s.rewind with execution? := some execution, phase := .running }

/-! ## Running the program -/

/-- Shows where an execution has got to. -/
def follow (s : Session) (e : Execution) : Session :=
  { s with
    execution? := some e
    character := e.position
    path := e.path
    phase := (e.result.map (·.ending.phase)).getD s.phase }

/-- Runs the next move of the program, if it is running. -/
def step (s : Session) : Option Step × Session :=
  match s.running? with
  | none => (none, s)
  | some e =>
    let (step, e) := e.step s.puzzle.maze
    (some step, s.follow e)

/-- The number of moves that are still to run. -/
def remaining (s : Session) : Nat := (s.running?.map (·.remaining)).getD 0

/-- **A step that does not end the program uses up a move.** -/
theorem remaining_of_step_moved {s s' : Session} {i : Nat} {p : Position}
    (h : s.step = (some (.moved i p), s')) : s'.remaining < s.remaining := by
  unfold step at h
  split at h
  · simp at h
  · rename_i e he
    have h₁ : (e.step s.puzzle.maze).1 = .moved i p := by simpa using congrArg (·.1) h
    have h₂ : s' = s.follow (e.step s.puzzle.maze).2 := by simpa using congrArg (·.2) h.symm
    have hs : s.remaining = e.remaining := by simp [remaining, he]
    have hlt : (e.step s.puzzle.maze).2.remaining < e.remaining :=
      Execution.remaining_of_step_moved (Prod.ext h₁ rfl)
    have hle : s'.remaining ≤ (e.step s.puzzle.maze).2.remaining := by
      simp only [h₂, remaining, running?, follow]
      split <;> simp
    omega

/-- Runs the remaining moves of the program, if it is running. -/
def playOut (s : Session) : Option Outcome × Session :=
  match s.running? with
  | none => (none, s)
  | some e =>
    let (outcome, e) := e.run s.puzzle.maze
    (some outcome, s.follow e)

end Session

end Labyrinth
