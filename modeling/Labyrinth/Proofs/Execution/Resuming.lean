/-
# Stepping first and running then

An execution that is run after some steps goes on from where the steps have got
to, and comes to the same end as if it had been run at once
(`Execution.run_after`).  For this the steps and the run have to be made in the
same maze.  How many steps there can be does not depend on the mazes: each step
that does not end the execution makes the next move of the program and leaves at
least one (`Execution.next_after`), so the moves are used up before long.
-/

import Labyrinth.Proofs.Execution.Requests

namespace Labyrinth
namespace Execution

/-- The execution after a step in each of the mazes. -/
def after (e : Execution) (mazes : List Maze) : Execution :=
  (replay respond e (mazes.map .step)).2

variable {m : Maze} {e : Execution} {mazes : List Maze} {o : Outcome} {i : Nat} {p : Position}

/-- The first maze is that of the first step. -/
theorem after_cons (e : Execution) (m : Maze) (mazes : List Maze) :
    e.after (m :: mazes) = (e.step m).2.after mazes := rfl

/-- Steps go on with those of further mazes. -/
theorem after_append (e : Execution) (before later : List Maze) :
    e.after (before ++ later) = (e.after before).after later := by
  rw [after, List.map_append, replay_append]
  rfl

/-- No step changes a finished execution. -/
theorem after_of_result (h : e.result = some o) (mazes : List Maze) : e.after mazes = e := by
  rw [after, replay_of_result h]

/-- After a step that ends the execution there is its outcome. -/
theorem result_of_step_finished {e' : Execution} (h : e.step m = (.finished o, e')) :
    e'.result = some o := by
  have hs := stepped m e
  rw [h] at hs
  cases hs with
  | ended ho => exact ho
  | usedUp | barred | arrived | lastMove => rfl

/-! ## Going on after a step -/

/-- **A step can be made first:** the run comes to the same end. -/
theorem run_step (m : Maze) (e : Execution) : (e.step m).2.run m = e.run m := by
  match hstep : e.step m with
  | (.finished o, e') =>
    rw [run_of_step_finished hstep, run_of_result (result_of_step_finished hstep)]
  | (.moved i p, e') => rw [run_of_step_moved hstep]

/-- A run ends in the same way after any steps in its maze. -/
theorem run_after (m : Maze) (k : Nat) (e : Execution) :
    (e.after (.replicate k m)).run m = e.run m := by
  induction k generalizing e with
  | zero => rfl
  | succ k ih => rw [List.replicate_succ, after_cons, ih, run_step]

/-- **Running is stepping up to the step that ends the execution.** -/
theorem exists_steps_of_run (m : Maze) (e : Execution) :
    ∃ n, (∀ j < n, ∃ i p, ((e.after (.replicate j m)).step m).1 = .moved i p) ∧
      (e.after (.replicate n m)).step m = (.finished (e.run m).1, (e.run m).2) := by
  match hstep : e.step m with
  | (.finished o, e') =>
    refine ⟨0, fun j hj => absurd hj (Nat.not_lt_zero j), ?_⟩
    rw [run_of_step_finished hstep]
    exact hstep
  | (.moved i p, e') =>
    obtain ⟨n, hmoved, hlast⟩ := exists_steps_of_run m e'
    have hlater : ∀ j, e.after (.replicate (j + 1) m) = e'.after (.replicate j m) := fun j => by
      rw [List.replicate_succ, after_cons, hstep]
    refine ⟨n + 1, fun j hj => ?_, ?_⟩
    · cases j with
      | zero => exact ⟨i, p, congrArg Prod.fst hstep⟩
      | succ j =>
        rw [hlater]
        exact hmoved j (Nat.lt_of_succ_lt_succ hj)
    · rw [hlater, run_of_step_moved hstep]
      exact hlast
termination_by e.remaining
decreasing_by exact remaining_of_step_moved hstep

/-! ## How many steps there are -/

/-- **A step that does not end the execution makes the next move.**  So as long as
it is not over there were as many moves as steps, and after each of them another
move was left. -/
theorem next_after (h : (e.after mazes).isFinished = false) :
    (e.after mazes).next = e.next + mazes.length ∧
      (mazes = [] ∨ e.next + mazes.length < e.program.length) := by
  induction mazes generalizing e with
  | nil => exact ⟨rfl, Or.inl rfl⟩
  | cons m mazes ih =>
    rw [after_cons] at h ⊢
    match hstep : e.step m with
    | (.finished o, e') =>
      have ho := result_of_step_finished hstep
      rw [hstep, after_of_result ho, isFinished, ho] at h
      cases h
    | (.moved i p, e') =>
      rw [hstep] at h
      obtain ⟨d, ds, -, hrest, hds, -, -, -, -, rfl⟩ := exists_of_step_moved hstep
      obtain ⟨hnext, hmore⟩ := ih h
      have hlength := e.length_rest
      have hpos := List.length_pos_iff.2 hds
      have hadvance : (e.advance d).next = e.next + 1 := rfl
      have hprogram : (e.advance d).program = e.program := rfl
      rw [hrest, List.length_cons] at hlength
      rw [hadvance] at hnext hmore
      rw [hprogram] at hmore
      rw [List.length_cons]
      refine ⟨by omega, Or.inr ?_⟩
      rcases hmore with rfl | hmore
      · rw [List.length_nil]
        omega
      · omega

/-- After a step that moves, the execution is not over. -/
theorem isFinished_of_step_moved {e' : Execution} (h : e.step m = (.moved i p, e')) :
    e'.isFinished = false := by
  obtain ⟨d, -, hresult, -, -, -, -, -, -, rfl⟩ := exists_of_step_moved h
  exact congrArg Option.isSome hresult

/-- A step that moves leaves a move. -/
theorem next_lt_of_step_moved (h : ((e.after mazes).step m).1 = .moved i p) :
    e.next + mazes.length + 1 < e.program.length := by
  have hunfinished : (e.after (mazes ++ [m])).isFinished = false := by
    rw [after_append]
    exact isFinished_of_step_moved (Prod.ext h rfl)
  rcases (next_after hunfinished).2 with hnil | hlt
  · exact absurd hnil (List.concat_ne_nil m mazes)
  · rw [List.length_append, List.length_singleton] at hlt
    omega

/-- **Stepping and running agree.**  Let a program be executed.  After any number of
steps in a maze, a run in it returns the outcome of `execute` and leaves the
execution that a run at once leaves.  Whatever the mazes of the steps are, a step
that is not the last reports the move that it made, by its index in the program and
by the position that it added to the path; every other step reports the outcome.
The execution is over after as many steps as the program has moves, and after one
step if it has none; and a run is the steps up to the first one that ends the
execution, so it comes to an end. -/
theorem stepping_agrees_with_running (start goal : Position) (program : List Direction) :
    let fresh := Execution.start start goal program
    (∀ (m : Maze) (k : Nat),
      (fresh.after (.replicate k m)).run m = (execute m start goal program, (fresh.run m).2)) ∧
    (∀ (mazes : List Maze) (m : Maze),
      let before := fresh.after mazes
      let after := (before.step m).2
      (after.isFinished = false → ∃ d p, (before.step m).1 = .moved mazes.length p ∧
        program[mazes.length]? = some d ∧ before.position.Leads d p ∧
        after.path = before.path.push p ∧ after.position = p ∧ after.next = mazes.length + 1) ∧
      (after.isFinished = true → ∃ o, (before.step m).1 = .finished o ∧ after.result = some o)) ∧
    (∀ mazes : List Maze, max 1 program.length ≤ mazes.length →
      (fresh.after mazes).isFinished = true) ∧
    ∀ (mazes : List Maze) (m : Maze), let e := fresh.after mazes
      ∃ n < max 1 program.length,
        (∀ j < n, ∃ i p, ((e.after (.replicate j m)).step m).1 = .moved i p) ∧
          (e.after (.replicate n m)).step m = (.finished (e.run m).1, (e.run m).2) := by
  intro fresh
  have hcount : ∀ mazes, (fresh.after mazes).isFinished = false →
      (fresh.after mazes).next = mazes.length ∧ (mazes = [] ∨ mazes.length < program.length) := by
    intro mazes h
    have hnext := next_after h
    rwa [show fresh.next = 0 from rfl, Nat.zero_add] at hnext
  refine ⟨fun m k => run_after m k fresh, fun mazes m => ?_, fun mazes hmany => ?_,
    fun mazes m => ?_⟩
  · intro before after
    match hstep : before.step m with
    | (.moved i p, e') =>
      have hafter : after = e' := congrArg Prod.snd hstep
      rw [hafter, isFinished_of_step_moved hstep]
      refine ⟨fun _ => ?_, by rintro ⟨⟩⟩
      obtain ⟨d, ds, hresult, hrest, -, hmove, -, rfl, rfl, rfl⟩ := exists_of_step_moved hstep
      have hrecorded : Recorded start goal program before :=
        recorded_replay start goal program _
      obtain ⟨hnext, -⟩ := hcount mazes (congrArg Option.isSome hresult)
      rw [← hnext]
      exact ⟨d, _, rfl, hrecorded.getElem?_next hrest, (Maze.canMove_iff.1 hmove).1, rfl, rfl, rfl⟩
    | (.finished o, e') =>
      have hafter : after = e' := congrArg Prod.snd hstep
      have ho := result_of_step_finished hstep
      rw [hafter, isFinished, ho]
      exact ⟨by rintro ⟨⟩, fun _ => ⟨o, rfl, rfl⟩⟩
  · rw [← Bool.not_eq_false]
    intro hunfinished
    rcases (hcount mazes hunfinished).2 with rfl | hlt
    · rw [List.length_nil] at hmany
      omega
    · omega
  · intro e
    obtain ⟨n, hmoved, hlast⟩ := exists_steps_of_run m e
    refine ⟨n, ?_, hmoved, hlast⟩
    cases n with
    | zero => omega
    | succ n =>
      -- the step before the last one left a move, so there were fewer steps than moves
      obtain ⟨i, p, hreport⟩ := hmoved n (Nat.lt_succ_self n)
      rw [← after_append] at hreport
      have hlt := next_lt_of_step_moved hreport
      rw [List.length_append, List.length_replicate, show fresh.next = 0 from rfl,
        show fresh.program = program from rfl] at hlt
      omega

/-- A program of two moves is over after two steps, also when the second one is made
in a maze of walls; its first step in an empty room reports the move with index zero,
and a run in the room after that comes to the outcome of both moves. -/
theorem stepping_agrees_with_running_two_moves :
    let room : Maze := .ofFn 3 3 fun x y => ⟨x, y, false, false⟩
    let fresh := Execution.start (.nearest 0 0) (.nearest 2 2) [.right, .down]
    (fresh.after [room, .blank 3 3]).isFinished = true ∧
    (∃ p, (fresh.step room).1 = .moved 0 p ∧ (fresh.step room).2.path = #[.nearest 0 0, p]) ∧
    ((fresh.after [room]).run room).1 =
      execute room (.nearest 0 0) (.nearest 2 2) [.right, .down] := by
  intro room fresh
  obtain ⟨hrun, hreport, hover, -⟩ :=
    stepping_agrees_with_running (.nearest 0 0) (.nearest 2 2) [.right, .down]
  have hunfinished : (fresh.step room).2.isFinished = false := by decide +kernel
  obtain ⟨d, p, hmoved, -, -, hpath, -⟩ := (hreport [] room).1 hunfinished
  exact ⟨hover [room, .blank 3 3] (by decide), ⟨p, hmoved, hpath⟩,
    congrArg Prod.fst (hrun room 1)⟩

end Execution
end Labyrinth
