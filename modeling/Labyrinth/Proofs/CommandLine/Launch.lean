/-
# From options to a session that plays

A run makes the session of its sides and its seed, adds the moves of the program
one by one, and plays it.  The session is not running before, so no move is
refused (`Session.foldlM_push`), and a program that has moves starts to run.  So
whether there is a puzzle decides whether there is an answer
(`run_of_generate_ok`, `run_of_generate_error`).

The answer shows the session as it is if there is nothing to run; otherwise the
program is animated or played out (`play_prepared`).  Its outcome is that of
`execute`, and what is left at the end makes the report that the options call for
(`Report.ofSession_of_kept`).
-/

import Labyrinth.CommandLine.Run
import Labyrinth.Proofs.Session.Playback

namespace Labyrinth

/-! ## Adding the moves -/

/-- A block is added at the end. -/
theorem Program.blocks_push (p : Program) (d : Direction) :
    (p.push d).blocks = p.blocks ++ [d] :=
  List.insertIdx_length_self

/-- Blocks that are added one by one stand there in their order. -/
theorem Program.blocks_foldl_push (ds : List Direction) (p : Program) :
    (ds.foldl push p).blocks = p.blocks ++ ds := by
  induction ds generalizing p with
  | nil => exact (List.append_nil _).symm
  | cons d ds ih => rw [List.foldl_cons, ih, blocks_push, List.append_assoc, List.singleton_append]

/-- **A session that is not running takes all the moves.** -/
theorem Session.foldlM_push {s : Session} (hidle : s.isRunning = false) (ds : List Direction) :
    ds.foldlM push s = .ok { s with program := ds.foldl Program.push s.program } := by
  induction ds generalizing s with
  | nil => rfl
  | cons d ds ih =>
    have hpush : s.push d = .ok { s with program := s.program.push d } := by
      rw [push, whenIdle_of_not_isRunning hidle]
    rw [List.foldlM_cons, hpush]
    exact ih (s := { s with program := s.program.push d }) hidle

/-- How the program of a session ends when it is executed. -/
def Session.outcome (s : Session) : Outcome :=
  execute s.puzzle.maze s.puzzle.start s.puzzle.goal s.program.blocks

namespace CommandLine

/-- The session of a puzzle with the program of the options, before it is played. -/
def prepared (o : Options) (seed : String) (puzzle : Puzzle) : Session :=
  { Session.ofPuzzle o.width o.height seed puzzle with
    program := o.program.foldl Program.push .empty }

/-- The options with the same game: what decides on the puzzle and on the program. -/
structure Options.SameGame (o o' : Options) : Prop where
  seed?_eq : o'.seed? = o.seed?
  width_eq : o'.width = o.width
  height_eq : o'.height = o.height
  program_eq : o'.program = o.program

variable {args : List String} {o : Options} {seed : String} {puzzle : Puzzle}
variable {e : PuzzleError} {a : Answer} {s : Session} {outcome? : Option Outcome}

/-- The prepared session has the program of the options. -/
theorem blocks_prepared (o : Options) (seed : String) (puzzle : Puzzle) :
    (prepared o seed puzzle).program.blocks = o.program :=
  Program.blocks_foldl_push o.program .empty

/-- It ends as executing this program does. -/
theorem outcome_prepared (o : Options) (seed : String) (puzzle : Puzzle) :
    (prepared o seed puzzle).outcome =
      execute puzzle.maze puzzle.start puzzle.goal o.program := by
  rw [Session.outcome, blocks_prepared]
  rfl

/-- There is nothing to run exactly if no move is given. -/
theorem isEmpty_prepared (o : Options) (seed : String) (puzzle : Puzzle) :
    (prepared o seed puzzle).program.isEmpty = o.program.isEmpty := by
  rw [Program.isEmpty, blocks_prepared]

/-- With a move there is something to run. -/
theorem isEmpty_prepared_of_ne (hprogram : o.program ≠ []) (seed : String) (puzzle : Puzzle) :
    (prepared o seed puzzle).program.isEmpty = false :=
  (isEmpty_prepared o seed puzzle).trans (List.isEmpty_eq_false_iff.2 hprogram)

/-- The same game has the same puzzle. -/
theorem Options.SameGame.generate_eq {o' : Options} (h : o.SameGame o') (seed : String) :
    Puzzle.generate o'.width o'.height seed = Puzzle.generate o.width o.height seed := by
  rw [h.width_eq, h.height_eq]

/-! ## Whether there is an answer -/

/-- **With a puzzle the run plays it**, whether its seed was given or invented. -/
theorem run_of_generate_ok {invented : String} (hseed : o.seed?.getD invented = seed)
    (h : Puzzle.generate o.width o.height seed = .ok puzzle) :
    run o invented = play o (prepared o seed puzzle) := by
  have hcreate := Session.create_eq_ok_iff.2 ⟨puzzle, h, rfl⟩
  rw [run, hseed, hcreate]
  show (o.program.foldlM Session.push _ >>= play o) = _
  rw [Session.foldlM_push rfl]
  rfl

/-- The answer to accepted arguments is that of the run. -/
theorem answer_of_run {invented : String} (hargs : parse? args = some (.run o))
    (hrun : run o invented = .ok a) : answer args invented = a := by
  rw [answer, hargs]
  simp only [hrun]

/-- With a puzzle it is that of playing the prepared session. -/
theorem answer_of_play (hargs : parse? args = some (.run o)) (hseed : o.seed? = some seed)
    (h : Puzzle.generate o.width o.height seed = .ok puzzle)
    (hplay : play o (prepared o seed puzzle) = .ok a) (invented : String) :
    answer args invented = a := by
  refine answer_of_run hargs ((run_of_generate_ok ?_ h).trans hplay)
  rw [hseed, Option.getD_some]

/-- An animation is not asked for together with a report in JSON. -/
theorem has_json_eq_false (hargs : parse? args = some (.run o)) (h : o.has .animate = true) :
    o.has .json = false := by
  obtain ⟨-, hexclusive⟩ := Option.filter_eq_some_iff.1 hargs
  simpa only [h, Bool.true_and, Bool.not_eq_true'] using hexclusive

/-! ## Playing -/

/-- A program with moves is underway once it is started. -/
theorem underway_prepared (hprogram : o.program ≠ []) (seed : String) (puzzle : Puzzle) :
    (prepared o seed puzzle).Underway (prepared o seed puzzle).outcome 0
      (prepared o seed puzzle).started :=
  Session.underway_started (isEmpty_prepared_of_ne hprogram seed puzzle)

/-- Without moves the session is shown as it is. -/
theorem play_prepared_of_nil (hprogram : o.program = []) (seed : String) (puzzle : Puzzle) :
    play o (prepared o seed puzzle) = .ok (still o (prepared o seed puzzle) none) := by
  rw [play, isEmpty_prepared, hprogram]
  rfl

/-- What is played after the start: the animation, or the rest of the program at
once. -/
theorem play_prepared (hprogram : o.program ≠ []) (seed : String) (puzzle : Puzzle) :
    play o (prepared o seed puzzle) =
      if o.has .animate then .ok (animated o (prepared o seed puzzle).started)
      else .ok (still o (prepared o seed puzzle).started.playOut.2
        (prepared o seed puzzle).started.playOut.1) := by
  have hblocks := isEmpty_prepared_of_ne hprogram seed puzzle
  rw [play, hblocks, if_neg Bool.false_ne_true, Session.play_eq_started rfl hblocks]
  rfl

/-- **Without an animation, the session is shown in which the program has ended.** -/
theorem exists_play_prepared_of_still (hprogram : o.program ≠ []) (hstill : o.has .animate = false)
    (seed : String) (puzzle : Puzzle) :
    ∃ last, (prepared o seed puzzle).Ended (prepared o seed puzzle).outcome last ∧
      play o (prepared o seed puzzle) =
        .ok (still o last (some (prepared o seed puzzle).outcome)) := by
  obtain ⟨last, hout, hended⟩ := (underway_prepared hprogram seed puzzle).playOut
  refine ⟨last, hended, ?_⟩
  rw [play_prepared hprogram, hstill, if_neg Bool.false_ne_true, hout]

/-! ## The report -/

/-- The report that the options call for, in the puzzle of their seed. -/
def Options.report (o : Options) (seed : String) (puzzle : Puzzle) : Report where
  seed := seed
  puzzle := puzzle
  program := o.program
  outcome? :=
    if o.program = [] then none else some (execute puzzle.maze puzzle.start puzzle.goal o.program)
  solution? := if o.has .solve then puzzle.solution? else none

/-- The report is made of what playing keeps. -/
theorem Report.ofSession_of_kept (hkept : (prepared o seed puzzle).Kept s)
    (houtcome : outcome? = (o.report seed puzzle).outcome?) :
    Report.ofSession o s outcome? = o.report seed puzzle := by
  rw [ofSession, hkept.seed_eq, hkept.puzzle_eq, hkept.program_eq, blocks_prepared, houtcome]
  rfl

/-- The program has ended as the report says. -/
theorem Report.ofSession_of_ended (hprogram : o.program ≠ [])
    (h : (prepared o seed puzzle).Ended (prepared o seed puzzle).outcome s) :
    Report.ofSession o s (some (prepared o seed puzzle).outcome) = o.report seed puzzle := by
  refine ofSession_of_kept h.kept ?_
  rw [outcome_prepared, Options.report, if_neg hprogram]

/-- **The exit status tells a program that was run and did not reach the goal.** -/
theorem status_report (o : Options) (seed : String) (puzzle : Puzzle) :
    (o.report seed puzzle).status =
      if o.program ≠ [] ∧
          (execute puzzle.maze puzzle.start puzzle.goal o.program).isSuccess = false
        then 2 else 0 := by
  have hall : (o.report seed puzzle).outcome?.all Outcome.isSuccess = true ↔
      ¬(o.program ≠ [] ∧
        (execute puzzle.maze puzzle.start puzzle.goal o.program).isSuccess = false) := by
    by_cases hprogram : o.program = []
    · simp [Options.report, hprogram]
    · simp [Options.report, hprogram]
  simp only [Report.status, hall, ite_not]

end CommandLine
end Labyrinth
