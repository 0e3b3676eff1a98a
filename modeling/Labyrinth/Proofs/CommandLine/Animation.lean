/-
# Animating a program and playing it out

The command shows a program in one of two ways.  Without an animation it plays the
program out and prints one drawing.  With an animation it steps the session, and
prints a frame after each step, with the index of the move from before it.

After each step the session shows what the moves so far come to when they are
executed by themselves (`Session.Underway.render_eq`).  A step that does not end
the program makes the next move, and the step that ends it makes or refuses one
more.  So there is a frame for each move that the outcome took a look at
(`Session.Underway.animate`), and the two ways agree in all that is printed after
the frames (`CommandLine.animation_agrees`).
-/

import Labyrinth.Proofs.CommandLine.Launch
import Labyrinth.Proofs.Execution.Verdict
import Labyrinth.Proofs.Puzzle.Goal

namespace Labyrinth

/-- The drawing of a puzzle after a program was executed. -/
def Puzzle.drawing (p : Puzzle) (program : List Direction) : String :=
  let path := (execute p.maze p.start p.goal program).path
  Scene.render ⟨p.maze, path.back?.getD p.start, p.goal, path⟩

/-- The number of moves that an outcome took a look at: those that were made, and
the one that blocked the program. -/
def Outcome.evaluated (r : Outcome) : Nat :=
  r.path.size - 1 + match r.ending with
    | .blocked _ => 1
    | .reached | .exhausted => 0

variable {m : Maze} {e e' : Execution} {r : Outcome} {s s' last : Session} {n : Nat}

/-! ## The moves that are evaluated -/

/-- A path has no more positions than moves were evaluated, and the start. -/
theorem Outcome.size_path_le (r : Outcome) : r.path.size ≤ r.evaluated + 1 := by
  unfold evaluated
  omega

/-- **The step that ends an execution evaluates one move more** than were made before. -/
theorem Execution.evaluated_of_step_finished (hresult : e.result = none) (hrest : e.rest ≠ [])
    (hsize : e.path.size = e.next + 1) (h : e.step m = (.finished r, e')) :
    r.evaluated = e.next + 1 := by
  have hs := stepped m e
  rw [h] at hs
  cases hs with
  | ended hr =>
    rw [hresult] at hr
    cases hr
  | usedUp _ hnil => exact absurd hnil hrest
  | barred _ _ _ =>
    show e.path.size - 1 + 1 = e.next + 1
    rw [hsize, Nat.add_sub_cancel]
  | arrived _ _ _ _ | lastMove _ _ _ _ =>
    show (e.path.push _).size - 1 = e.next + 1
    rw [Array.size_push, hsize, Nat.add_sub_cancel]

namespace Session

/-! ## What a session draws -/

/-- A session draws a program whose path it shows. -/
theorem Kept.render_eq (h : s.Kept s') (hback : s'.path.back? = some s'.character)
    (hpath : s'.path.toList = s.outcome.path.toList.take (n + 1)) :
    s'.scene.render = s.puzzle.drawing (s.program.blocks.take n) := by
  rw [outcome, ← path_execute_take] at hpath
  rw [scene, Puzzle.drawing, ← Array.toList_inj.1 hpath, h.puzzle_eq, hback]
  rfl

/-- A session that is underway counts the steps that it made. -/
theorem Underway.currentStep_eq (h : s.Underway r n s') : s'.currentStep = n := by
  obtain ⟨e, hshows, hnext, -⟩ := h.shows
  rw [hshows.currentStep_eq, hnext]

/-- **After some moves a session draws what these moves come to.** -/
theorem Underway.render_eq (h : s.Underway s.outcome n s') (hsize : s'.path.size = n + 1) :
    s'.scene.render = s.puzzle.drawing (s.program.blocks.take n) := by
  obtain ⟨e, hshows, -⟩ := h.shows
  have hback : s'.path.back? = some s'.character := by
    rw [← hshows.path_eq, hshows.back?_eq, hshows.position_eq]
  have htake := List.prefix_iff_eq_take.1 h.path_prefix
  rw [Array.length_toList, hsize] at htake
  exact h.kept.render_eq hback htake

/-- At the end it draws what the moves come to that were evaluated. -/
theorem Ended.render_eq (h : s.Ended s.outcome last) :
    last.scene.render = s.puzzle.drawing (s.program.blocks.take s.outcome.evaluated) := by
  have hback : last.path.back? = some last.character := by
    rw [h.path_eq, h.back?_eq]
  refine h.kept.render_eq hback ?_
  rw [h.path_eq, List.take_of_length_le s.outcome.size_path_le]

/-! ## Steps -/

/-- A step that moves adds a position to the path. -/
theorem Underway.size_path_of_step_moved (h : s.Underway r n s') (hsize : s'.path.size = n + 1)
    {k : Nat} {p : Position} (hstep : s'.step = (some (.moved k p), last)) :
    last.path.size = n + 1 + 1 := by
  obtain ⟨e, hshows, -⟩ := h.shows
  obtain ⟨e', hmoved, rfl⟩ := hshows.exists_of_step hstep
  obtain ⟨d, -, -, -, -, -, -, -, -, rfl⟩ := Execution.exists_of_step_moved hmoved
  show (e.path.push _).size = n + 1 + 1
  rw [Array.size_push, hshows.path_eq, hsize]

/-- A step that finishes is the last one that is evaluated. -/
theorem Underway.evaluated_of_step_finished (h : s.Underway r n s')
    (hsize : s'.path.size = n + 1) (hstep : s'.step = (some (.finished r), last)) :
    r.evaluated = n + 1 := by
  obtain ⟨e, hshows, hnext, -⟩ := h.shows
  obtain ⟨e', hfinished, -⟩ := hshows.exists_of_step hstep
  have hpath : e.path.size = e.next + 1 := by rw [hshows.path_eq, hsize, hnext]
  rw [Execution.evaluated_of_step_finished hshows.unfinished hshows.rest_ne hpath hfinished, hnext]

end Session

namespace CommandLine

/-! ## Frames -/

/-- The last step is the last frame. -/
theorem animate_of_step_finished (h : s.step = (some (.finished r), s')) :
    animate s = ([frame s'.program.blocks s.currentStep s'], some r, s') := by
  rw [animate]
  split
  · rename_i h'
    rw [h] at h'
    cases h'
  · rename_i h'
    rw [h] at h'
    cases h'
    rfl
  · rename_i h'
    rw [h] at h'
    cases h'

/-- Any other step is a frame before those of the session after it. -/
theorem animate_of_step_moved {k : Nat} {p : Position} (h : s.step = (some (.moved k p), s')) :
    animate s = (frame s'.program.blocks s.currentStep s' :: (animate s').1, (animate s').2) := by
  rw [animate]
  split
  · rename_i h'
    rw [h] at h'
    cases h'
  · rename_i h'
    rw [h] at h'
    cases h'
  · rename_i h'
    rw [h] at h'
    cases h'
    rfl

/-- The frame of a move with its number: an empty line, a line with the number and
the name of the move, and the drawing after as many moves of the program. -/
def stepFrame (p : Puzzle) (program : List Direction) (move : Direction × Nat) : String :=
  "\n" ++ line s!"Step {move.2}/{program.length}: {move.1.name}" ++
    p.drawing (program.take move.2)

/-- The frames of the first moves of a program, from the one with an index on. -/
def framesFrom (p : Puzzle) (program : List Direction) (evaluated n : Nat) : List String :=
  (((program.take evaluated).drop n).zipIdx (n + 1)).map (stepFrame p program)

variable {p : Puzzle} {program : List Direction} {d : Direction} {evaluated : Nat}

/-- A frame shows the move, its number, and the drawing of the program until there. -/
theorem frame_eq_stepFrame (hd : program[n]? = some d)
    (hrender : s.scene.render = p.drawing (program.take (n + 1))) :
    frame program n s = stepFrame p program (d, n + 1) := by
  rw [frame, hd, hrender]
  rfl

/-- The frames that are left begin with that of the next move. -/
theorem framesFrom_eq_cons (hd : program[n]? = some d) (hn : n < evaluated) :
    framesFrom p program evaluated n =
      stepFrame p program (d, n + 1) :: framesFrom p program evaluated (n + 1) := by
  obtain ⟨hlt, hget⟩ := List.getElem?_eq_some_iff.1 hd
  have hlength : n < (program.take evaluated).length := by
    rw [List.length_take]
    omega
  rw [framesFrom, List.drop_eq_getElem_cons hlength, List.getElem_take, hget, List.zipIdx_cons,
    List.map_cons]
  rfl

/-- No frame is left behind the last evaluated move. -/
theorem framesFrom_eq_nil (hn : evaluated ≤ n) : framesFrom p program evaluated n = [] := by
  have hlength : (program.take evaluated).length ≤ n :=
    Nat.le_trans (List.length_take_le ..) hn
  rw [framesFrom, List.drop_eq_nil_of_le hlength]
  rfl

end CommandLine

/-- **An animation shows the moves that are evaluated.**  Animated from wherever it
has got, the program ends as it should, after a frame for each of them. -/
theorem Session.Underway.animate {n : Nat} {s' : Session} (h : s.Underway s.outcome n s')
    (hsize : s'.path.size = n + 1) :
    ∃ last, CommandLine.animate s' =
        (CommandLine.framesFrom s.puzzle s.program.blocks s.outcome.evaluated n,
          some s.outcome, last) ∧
      s.Ended s.outcome last ∧ n < s.outcome.evaluated ∧
      s.outcome.evaluated ≤ s.program.length := by
  obtain ⟨d, hd⟩ : ∃ d, s.program.blocks[n]? = some d :=
    ⟨_, List.getElem?_eq_getElem h.lt_length⟩
  rcases h.step with ⟨k, p, next, hstep, hnext⟩ | ⟨last, hstep, hended⟩
  · -- the program evaluates more than the next session has made, so also the move in between
    have hsize' := h.size_path_of_step_moved hsize hstep
    obtain ⟨last, hrest, hended, hlt, hle⟩ := hnext.animate hsize'
    refine ⟨last, ?_, hended, by omega, hle⟩
    rw [CommandLine.animate_of_step_moved hstep, hrest, h.currentStep_eq, hnext.kept.program_eq,
      CommandLine.frame_eq_stepFrame hd (hnext.render_eq hsize'),
      CommandLine.framesFrom_eq_cons hd (by omega)]
  · have hevaluated := h.evaluated_of_step_finished hsize hstep
    have hrender := hended.render_eq
    have hlt := h.lt_length
    rw [hevaluated] at hrender ⊢
    refine ⟨last, ?_, hended, Nat.lt_succ_self n, hlt⟩
    rw [CommandLine.animate_of_step_finished hstep, h.currentStep_eq, hended.kept.program_eq,
      CommandLine.frame_eq_stepFrame hd hrender,
      CommandLine.framesFrom_eq_cons hd (Nat.lt_succ_self n),
      CommandLine.framesFrom_eq_nil (Nat.le_refl _)]
termination_by s'.remaining
decreasing_by exact remaining_of_step_moved hstep

namespace CommandLine

/-! ## Answers -/

/-- **The answer of an animation:** the drawing at the start, and then the frames. -/
theorem animated_prepared {o : Options} (hprogram : o.program ≠ []) (seed : String) (p : Puzzle) :
    let r := execute p.maze p.start p.goal o.program
    animated o (prepared o seed p).started =
        ⟨(o.report seed p).status, line ("Maze seed: " ++ seed) ++ p.drawing [],
          framesFrom p o.program r.evaluated 0, (o.report seed p).closing o, none⟩ ∧
      0 < r.evaluated ∧ r.evaluated ≤ o.program.length := by
  intro r
  have hunderway := underway_prepared hprogram seed p
  obtain ⟨last, hanimate, hended, hpos, hle⟩ := hunderway.animate rfl
  have hreport := Report.ofSession_of_ended hprogram hended
  rw [Program.length] at hle
  rw [outcome_prepared, blocks_prepared] at hanimate hle
  rw [outcome_prepared] at hpos hreport
  refine ⟨?_, hpos, hle⟩
  rw [animated, hanimate]
  show Answer.mk (Report.status (Report.ofSession o last (some r))) _ _ _ _ = _
  rw [hreport, picture, hunderway.render_eq rfl, List.take_zero]
  rfl

/-- **The answer without an animation:** the drawing at the end, unless there is a
report in JSON. -/
theorem still_of_ended {o : Options} {seed : String} {p : Puzzle}
    (h : (prepared o seed p).Ended (prepared o seed p).outcome last) (hprogram : o.program ≠ []) :
    let r := execute p.maze p.start p.goal o.program
    still o last (some (prepared o seed p).outcome) =
      ⟨(o.report seed p).status,
        if o.has .json then ""
        else line ("Maze seed: " ++ seed) ++ p.drawing (o.program.take r.evaluated),
        [], (o.report seed p).closing o, none⟩ := by
  have hrender := h.render_eq
  rw [blocks_prepared, outcome_prepared] at hrender
  rw [still, Report.ofSession_of_ended hprogram h, picture, hrender, h.kept.seed_eq]
  rfl

/-- What is printed below the drawings: the message, and the solution if it was
asked for. -/
theorem closing_report {o : Options} {ds : List Direction} (hprogram : o.program ≠ [])
    (hjson : o.has .json = false) (hds : p.solution? = some ds) (seed : String) :
    (o.report seed p).closing o =
      line ((execute p.maze p.start p.goal o.program).message o.program) ++
        if o.has .solve then solutionLine ds else "" := by
  rw [Report.closing, hjson, if_neg Bool.false_ne_true, Report.summary, Report.message?,
    Options.report]
  simp only [if_neg hprogram, hds]
  cases o.has .solve with
  | true | false => rfl

/-- **The animated and the plain command agree.**  Take accepted arguments that ask
for an animation, and accepted arguments that ask for the same game and the same
solution but neither for an animation nor for JSON; let the seed be given, the
sides be in range and the program not be empty.  Then the program is run on the
puzzle of the seed and `execute` says how it ends.  The animation prints the seed
and the drawing at the start; then for each of the moves that were made, and for
the one that blocked the program, an empty line, the number of the move and its
name, and the drawing of the program up to this move; and then the message about
the outcome and the solution, if it was asked for.  Without the animation the seed
and the last of these drawings are printed, and the same message and solution.
Both have the same exit status and no error. -/
theorem animation_agrees {args plain : List String} {o o' : Options} {seed : String}
    (hargs : parse? args = some (.run o)) (hplain : parse? plain = some (.run o'))
    (hanimate : o.has .animate = true) (hstill : o'.has .animate = false)
    (hjson : o'.has .json = false) (hsame : o.SameGame o')
    (hsolve : o'.has .solve = o.has .solve) (hseed : o.seed? = some seed)
    (hw : 4 ≤ o.width ∧ o.width ≤ 2147483647) (hh : 4 ≤ o.height ∧ o.height ≤ 2147483647)
    (hprogram : o.program ≠ []) (invented invented' : String) :
    ∃ p ds, Puzzle.generate o.width o.height seed = .ok p ∧ p.solution? = some ds ∧
      let r := execute p.maze p.start p.goal o.program
      let drawing := fun i => p.drawing (o.program.take i)
      let ending := line (r.message o.program) ++ if o.has .solve then solutionLine ds else ""
      let animated := answer args invented
      let still := answer plain invented'
      1 ≤ r.evaluated ∧ r.evaluated ≤ o.program.length ∧
      animated.output = line ("Maze seed: " ++ seed) ++ drawing 0 ++
        String.join (((o.program.take r.evaluated).zipIdx 1).map fun move =>
          "\n" ++ line s!"Step {move.2}/{o.program.length}: {move.1.name}" ++ drawing move.2) ++
        ending ∧
      still.output = line ("Maze seed: " ++ seed) ++ drawing r.evaluated ++ ending ∧
      animated.status = still.status ∧ animated.error? = none ∧ still.error? = none := by
  obtain ⟨-, p, -, -, hp, -⟩ := Puzzle.generate_of_le hw hh seed
  obtain ⟨ds, hds⟩ := (Puzzle.playable_of_generate hp).1.solvable
  refine ⟨p, ds, hp, hds, ?_⟩
  intro r drawing ending animated still
  have hprogram' : o'.program ≠ [] := by rwa [hsame.program_eq]
  have hp' := (hsame.generate_eq seed).trans hp
  have hplay := play_prepared hprogram seed p
  rw [hanimate, if_pos rfl] at hplay
  obtain ⟨last, hended, hplay'⟩ := exists_play_prepared_of_still hprogram' hstill seed p
  have hanimated : animated = _ := answer_of_play hargs hseed hp hplay invented
  have hplayed : still = _ :=
    answer_of_play hplain (hsame.seed?_eq.trans hseed) hp' hplay' invented'
  obtain ⟨hframes, hpos, hle⟩ := animated_prepared hprogram seed p
  have hlast := still_of_ended hended hprogram'
  have hclosing := closing_report hprogram (has_json_eq_false hargs hanimate) hds seed
  have hclosing' := closing_report hprogram' hjson hds seed
  simp only [hjson, Bool.false_eq_true, if_false, hsame.program_eq] at hlast
  rw [hsame.program_eq, hsolve] at hclosing'
  refine ⟨hpos, hle, ?_, ?_, ?_, ?_, ?_⟩
  · rw [hanimated, hframes, Answer.output, hclosing]
    rfl
  · rw [hplayed, hlast, Answer.output, hclosing', String.join_nil, String.append_empty]
  · rw [hanimated, hplayed, hframes, hlast, status_report, status_report, hsame.program_eq]
  · rw [hanimated, hframes]
  · rw [hplayed, hlast]

/-- Of two moves the second one hits a wall: there are two frames, and the drawing
in the second one is the one that is printed without the animation. -/
theorem animation_agrees_blocked :
    let shared := ["--seed", "maze", "-W5", "-H4", "-p", "down,right", "--solve"]
    let animated := answer (shared ++ ["--animate"]) ""
    let still := answer shared ""
    ∃ p ending, Puzzle.generate 5 4 "maze" = .ok p ∧
      animated.output = line "Maze seed: maze" ++ p.drawing [] ++
        String.join ["\n" ++ line "Step 1/2: down" ++ p.drawing [.down],
          "\n" ++ line "Step 2/2: right" ++ p.drawing [.down, .right]] ++ ending ∧
      still.output = line "Maze seed: maze" ++ p.drawing [.down, .right] ++ ending ∧
      animated.status = still.status := by
  intro shared animated still
  let o : Options := ⟨some "maze", some 5, some 4, [.down, .right], [.animate, .solve]⟩
  let o' : Options := ⟨some "maze", some 5, some 4, [.down, .right], [.solve]⟩
  have hargs : parse? (shared ++ ["--animate"]) = some (.run o) := by decide +kernel
  have hplain : parse? shared = some (.run o') := by decide +kernel
  obtain ⟨p, ds, hp, -, -, -, hanimated, hstill, hstatus, -, -⟩ :=
    animation_agrees hargs hplain rfl rfl rfl ⟨rfl, rfl, rfl, rfl⟩ rfl rfl (by decide) (by decide)
      (by decide) "" ""
  have hevaluated : (execute p.maze p.start p.goal [.down, .right]).evaluated = 2 := by
    have hany : (Puzzle.generate 5 4 "maze").toOption.any (fun p =>
        (execute p.maze p.start p.goal [.down, .right]).evaluated = 2) = true := by
      decide +kernel
    rw [show Puzzle.generate 5 4 "maze" = .ok p from hp] at hany
    exact of_decide_eq_true hany
  rw [show (execute p.maze p.start p.goal o.program).evaluated = 2 from hevaluated]
    at hanimated hstill
  have hseed : "Maze seed: maze" = "Maze seed: " ++ "maze" := by decide
  have hdown : "Step 1/2: down" = s!"Step {1}/{2}: {Direction.down.name}" := by decide
  have hright : "Step 2/2: right" = s!"Step {2}/{2}: {Direction.right.name}" := by decide
  rw [hseed, hdown, hright]
  exact ⟨p, _, hp, hanimated, hstill, hstatus⟩

end CommandLine
end Labyrinth
