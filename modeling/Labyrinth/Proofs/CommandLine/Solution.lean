/-
# The printed solution solves the maze

With `--solve` the command prints a shortest program of the puzzle, in the form in
which it reads programs.  The puzzle is the same in another run with the same seed
and sides, and there the program leads to the goal, whatever moves come behind it.
So what one run prints makes the other succeed (`printed_solution_solves`).
-/

import Labyrinth.Proofs.CommandLine.Reading
import Labyrinth.Proofs.CommandLine.Status
import Labyrinth.Proofs.Execution.Solving

namespace Labyrinth.CommandLine

variable {args : List String} {o : Options} {seed invented : String} {p : Puzzle}
variable {ds more : List Direction}

/-- The solution takes one line. -/
theorem newline_notMem_solution (ds : List Direction) :
    '\n' ∉ (s!"Solution ({ds.length} moves): {programText ds}").toList := by
  refine newline_notMem_append (newline_notMem_append (newline_notMem_append ?_ ?_) ?_) ?_
  · decide
  · exact newline_notMem_toString ds.length
  · decide
  · exact newline_notMem_programText ds

/-- What is printed below the drawings ends with the solution, if it was asked for. -/
theorem exists_closing_eq_append_solutionLine (hsolve : o.has .solve = true)
    (hjson : o.has .json = false) (hds : p.solution? = some ds) (seed : String) :
    ∃ before, IsLines before ∧ (o.report seed p).closing o = before ++ solutionLine ds := by
  have hsolution : (o.report seed p).solution? = some ds := by
    rw [Options.report, hsolve, if_pos rfl, hds]
  rw [Report.closing, hjson, if_neg Bool.false_ne_true, Report.summary, hsolution]
  cases (o.report seed p).message? with
  | none => exact ⟨"", isLines_empty, rfl⟩
  | some message => exact ⟨line message, isLines_line message, rfl⟩

/-- **The solution is printed** in a line of its own. -/
theorem solution_mem_linesOf (hargs : parse? args = some (.run o))
    (hseed : o.seed?.getD invented = seed) (hp : Puzzle.generate o.width o.height seed = .ok p)
    (hsolve : o.has .solve = true) (hjson : o.has .json = false) (hds : p.solution? = some ds) :
    s!"Solution ({ds.length} moves): {programText ds}" ∈ linesOf (answer args invented).output := by
  obtain ⟨opening, frames, hanswer, -, hlines⟩ := exists_answer_of_generate hargs hseed hp
  obtain ⟨before, hbefore, hclosing⟩ :=
    exists_closing_eq_append_solutionLine hsolve hjson hds seed
  have houtput : (answer args invented).output =
      opening ++ String.join frames ++ before ++ solutionLine ds ++ "" := by
    rw [hanswer, Answer.output, hclosing, String.append_empty, ← String.append_assoc]
  rw [houtput]
  exact (hlines.append hbefore).mem_linesOf (newline_notMem_solution ds) ""

/-- **The message about the program is printed** in a line of its own. -/
theorem message_mem_linesOf {message : String} (hargs : parse? args = some (.run o))
    (hseed : o.seed?.getD invented = seed) (hp : Puzzle.generate o.width o.height seed = .ok p)
    (hprogram : o.program ≠ []) (hjson : o.has .json = false) (hds : p.solution? = some ds)
    (hmessage : (execute p.maze p.start p.goal o.program).message o.program = message)
    (hline : '\n' ∉ message.toList) : message ∈ linesOf (answer args invented).output := by
  obtain ⟨opening, frames, hanswer, -, hlines⟩ := exists_answer_of_generate hargs hseed hp
  have houtput : (answer args invented).output = opening ++ String.join frames ++ line message ++
      if o.has .solve then solutionLine ds else "" := by
    rw [hanswer, Answer.output, closing_report hprogram hjson hds, hmessage, ← String.append_assoc]
  rw [houtput]
  exact hlines.mem_linesOf hline _

/-- **A program that begins with the solution succeeds**, and the answer says so. -/
theorem answer_of_solving (hargs : parse? args = some (.run o))
    (hseed : o.seed?.getD invented = seed) (hp : Puzzle.generate o.width o.height seed = .ok p)
    (hds : p.solution? = some ds) (hprogram : o.program = ds ++ more) :
    let a := answer args invented
    a.status = 0 ∧ a.error? = none ∧
      (o.has .json = false → "You've reached the fruit! Well done!" ∈ linesOf a.output) ∧
      (o.has .json = true →
        let report := (o.report seed p).toJson
        a.Prints report ∧
        report.field? "message" = some (.str "You've reached the fruit! Well done!")) := by
  intro a
  have hplayable := (Puzzle.playable_of_generate hp).1
  have hrun := execute_of_shortestRoute? hds hplayable.start_ne_goal more
  rw [← hprogram] at hrun
  have hne : o.program ≠ [] := by
    rw [hprogram]
    exact List.append_ne_nil_of_left_ne_nil (hplayable.solution_ne_nil hds) more
  have hmessage : (execute p.maze p.start p.goal o.program).message o.program =
      "You've reached the fruit! Well done!" := by
    rw [hrun]
    rfl
  obtain ⟨opening, frames, hanswer, -⟩ := exists_answer_of_generate hargs hseed hp
  have hstatus : (o.report seed p).status = 0 := by
    rw [status_report, hrun]
    exact if_neg fun h => Bool.noConfusion h.2
  refine ⟨(congrArg Answer.status hanswer).trans hstatus, congrArg Answer.error? hanswer,
    fun hplain => message_mem_linesOf hargs hseed hp hne hplain hds hmessage (by decide),
    fun hjson => ⟨prints_report hargs hseed hp hjson, ?_⟩⟩
  rw [(field?_report o hds seed).2.1, if_neg hne, hmessage]

/-- **The printed solution solves the maze.**  Take accepted arguments that ask for a
run in a maze whose sides are in range, for the solution, and not for JSON; the seed
may be given or invented.  There is a shortest program of the puzzle, it has moves,
and a line of the output says how many and names them, with commas in between.  This
text is read back to the program, and the option for the program takes it in
wherever it stands.  There are arguments with the same seed and sides and with the
text as the program, any names of further moves behind it, that are accepted.  And
whatever accepted arguments ask for a run with the same seed and sides and with a
program that begins with these moves, the run succeeds and says so. -/
theorem printed_solution_solves (hargs : parse? args = some (.run o)) (hfit : o.SidesFit)
    (hsolve : o.has .solve = true) (hjson : o.has .json = false) (invented : String) :
    let seed := o.seed?.getD invented
    ∃ p ds, Puzzle.generate o.width o.height seed = .ok p ∧ p.solution? = some ds ∧
      1 ≤ ds.length ∧
      let moves := ",".intercalate (ds.map Direction.name)
      s!"Solution ({ds.length} moves): {moves}" ∈ linesOf (answer args invented).output ∧
      readProgram? moves = some ds ∧
      (∀ o' args', readArguments o' ("--program" :: moves :: args') =
        readArguments { o' with program := o'.program ++ ds } args') ∧
      (∀ more : List Direction,
        let text := moves ++ String.join (more.map fun d => "," ++ d.name)
        parse? (gameArguments seed o.width o.height text) =
          some (.run ⟨some seed, some o.width, some o.height, ds ++ more, []⟩)) ∧
      ∀ args' o' invented' more, parse? args' = some (.run o') →
        o'.seed?.getD invented' = seed → o'.width = o.width → o'.height = o.height →
        o'.program = ds ++ more →
          let a := answer args' invented'
          a.status = 0 ∧ a.error? = none ∧
            (o'.has .json = false → "You've reached the fruit! Well done!" ∈ linesOf a.output) ∧
            (o'.has .json = true →
              let report := (o'.report seed p).toJson
              a.Prints report ∧
              report.field? "message" = some (.str "You've reached the fruit! Well done!")) := by
  intro seed
  obtain ⟨-, p, -, -, hp, -⟩ := Puzzle.generate_of_le hfit.1 hfit.2 seed
  have hplayable := (Puzzle.playable_of_generate hp).1
  obtain ⟨ds, hds⟩ := hplayable.solvable
  have hne := hplayable.solution_ne_nil hds
  obtain ⟨⟨-, hwidth⟩, -, hheight⟩ := hfit
  refine ⟨p, ds, hp, hds, List.length_pos_iff.2 hne,
    solution_mem_linesOf hargs rfl hp hsolve hjson hds, readProgram?_programText hne,
    readArguments_program hne, fun more => ?_, ?_⟩
  · show parse? (gameArguments seed o.width o.height (programText ds ++ _)) = _
    rw [← programText_append hne]
    exact parse?_gameArguments (by omega) (by omega) (List.append_ne_nil_of_left_ne_nil hne more)
  · intro args' o' invented' more hargs' hseed hw hh hprogram
    have hp' : Puzzle.generate o'.width o'.height seed = .ok p := by
      rw [hw, hh]
      exact hp
    exact answer_of_solving hargs' hseed hp' hds hprogram

/-- One run prints the five moves of a solution; another one runs them with a sixth
behind them, in the maze of the same seed, and arrives. -/
theorem printed_solution_solves_five_by_four :
    "Solution (5 moves): down,down,right,right,up" ∈
      linesOf (answer ["--seed", "maze", "-W5", "-H4", "--solve"] "").output ∧
    (answer ["-H4", "-W5", "-p", "down,down,right,right,up,left", "--seed=maze"] "").status = 0 ∧
    "You've reached the fruit! Well done!" ∈ linesOf
      (answer ["-H4", "-W5", "-p", "down,down,right,right,up,left", "--seed=maze"] "").output := by
  let moves : List Direction := [.down, .down, .right, .right, .up]
  let o : Options := ⟨some "maze", some 5, some 4, [], [.solve]⟩
  let o' : Options := ⟨some "maze", some 5, some 4, moves ++ [.left], []⟩
  have hargs : parse? ["--seed", "maze", "-W5", "-H4", "--solve"] = some (.run o) := by
    decide +kernel
  have hargs' : parse? ["-H4", "-W5", "-p", "down,down,right,right,up,left", "--seed=maze"] =
      some (.run o') := by
    decide +kernel
  obtain ⟨p, ds, hp, hds, -, hline, -, -, -, hagain⟩ :=
    printed_solution_solves hargs ⟨by decide, by decide⟩ rfl rfl ""
  have hmoves : ds = moves := by
    have hany : (Puzzle.generate 5 4 "maze").toOption.any (fun p => p.solution? = some moves) := by
      decide +kernel
    rw [show Puzzle.generate 5 4 "maze" = .ok p from hp] at hany
    exact Option.some.inj (hds.symm.trans (of_decide_eq_true hany))
  subst hmoves
  obtain ⟨hstatus, -, hmessage, -⟩ := hagain _ o' "" [.left] hargs' rfl rfl rfl rfl
  have htext : "Solution (5 moves): down,down,right,right,up" =
      s!"Solution ({5} moves): {programText moves}" := by
    decide
  rw [htext]
  exact ⟨hline, hstatus, hmessage rfl⟩

end Labyrinth.CommandLine
