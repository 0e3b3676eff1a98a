/-
# Routes solve mazes, and runs find routes

Two parts of the library move through a maze on their own.  A search goes from
cell to cell and stops at the limits of the coordinates, an execution asks
before each move whether it can be made.  They accept the same walks.  A run
goes along every walk that keeps off the goal (`Execution.run_along`), so it
follows a route to its end, whatever moves come behind
(`execute_of_shortestRoute?`); and the path of a run that arrived is a walk
(`Execution.exists_walk_of_run_reached`), so a route is not longer.
-/

import Labyrinth.Proofs.Execution.Stepping
import Labyrinth.Proofs.Puzzle.Goal

namespace Labyrinth

namespace Position

/-- A path begins where it starts. -/
theorem path_eq_cons (p : Position) (ds : List Direction) : p.path ds = p :: (p.path ds).tail := by
  cases ds <;> rfl

/-- It has a position more than there are moves. -/
@[simp]
theorem length_path (p : Position) (ds : List Direction) : (p.path ds).length = ds.length + 1 := by
  induction ds generalizing p with
  | nil => rfl
  | cons d ds ih => rw [path, List.length_cons, ih, List.length_cons]

end Position

namespace Execution

variable {m : Maze} {e : Execution} {p : Position} {d : Direction} {ds more : List Direction}

/-! ## Along a walk -/

/-- The execution after several moves of the character. -/
def advances (e : Execution) (ds : List Direction) : Execution := ds.foldl advance e

/-- The first advance goes before the others. -/
theorem advances_cons (e : Execution) (d : Direction) (ds : List Direction) :
    e.advances (d :: ds) = (e.advance d).advances ds := rfl

/-- Advances give no result. -/
@[simp]
theorem result_advances (e : Execution) (ds : List Direction) :
    (e.advances ds).result = e.result := by
  induction ds generalizing e with
  | nil => rfl
  | cons d ds ih => exact ih (e.advance d)

/-- They keep the goal. -/
@[simp]
theorem goal_advances (e : Execution) (ds : List Direction) : (e.advances ds).goal = e.goal := by
  induction ds generalizing e with
  | nil => rfl
  | cons d ds ih => exact ih (e.advance d)

/-- Each one takes a move off. -/
theorem rest_advances (h : e.rest = ds ++ more) : (e.advances ds).rest = more := by
  induction ds generalizing e with
  | nil => exact h
  | cons d ds ih => exact ih (rest_advance h)

/-- Together they add the path of the moves. -/
theorem path_advances (e : Execution) (ds : List Direction) :
    (e.advances ds).path.toList = e.path.toList ++ (e.position.path ds).tail := by
  induction ds generalizing e with
  | nil => exact (List.append_nil _).symm
  | cons d ds ih =>
    calc (e.advances (d :: ds)).path.toList
        = (e.path.push (e.position.move d)).toList ++ ((e.position.move d).path ds).tail :=
          ih (e.advance d)
      _ = e.path.toList ++ (e.position.move d :: ((e.position.move d).path ds).tail) := by
          rw [Array.toList_push, List.append_assoc, List.singleton_append]
      _ = e.path.toList ++ (e.position.path (d :: ds)).tail := by
          rw [← Position.path_eq_cons, Position.path, List.tail_cons]

/-- Along a walk they lead to its end. -/
theorem position_advances (hw : m.Walk e.position ds p) : (e.advances ds).position = p := by
  generalize ha : e.position = a at hw
  induction hw generalizing e with
  | stay _ => exact ha
  | go _ hl _ ih =>
    refine ih (e := e.advance _) ?_
    rw [advance, ha, hl.move_eq]

/-- **A run goes along a walk that keeps off the goal**, and on with the moves
behind it. -/
theorem run_along (h : e.result = none) (hw : m.Walk e.position ds p)
    (hgoal : e.goal ∉ (e.position.path ds).tail) (hrest : e.rest = ds ++ more) :
    e.run m = (e.advances ds).run m := by
  induction ds generalizing e with
  | nil => rfl
  | cons d ds ih =>
    obtain ⟨hl, hq⟩ : e.position.Leads d (e.position.move d) ∧
        m.Walk (e.position.move d) ds p := by
      cases hw with
      | go _ hl hq => rw [hl.move_eq]; exact ⟨hl, hq⟩
    have hmove : m.canMove e.position d = true := Maze.canMove_iff.2 ⟨hl, hq.isOpen_first⟩
    rw [Position.path, List.tail_cons, Position.path_eq_cons, List.mem_cons, not_or] at hgoal
    rw [run_advance h hrest hmove (Ne.symm hgoal.1), advances_cons]
    exact ih h hq hgoal.2 (rest_advance hrest)

/-- A run that goes along such a walk up to a cell beside the goal arrives. -/
theorem run_along_to_goal (h : e.result = none) (hw : m.Walk e.position ds p)
    (hgoal : e.goal ∉ (e.position.path ds).tail) (hl : p.Leads d e.goal) (hopen : m.isOpen e.goal)
    (hrest : e.rest = ds ++ d :: more) :
    (e.run m).1 = ⟨.reached, (e.advances ds).path.push e.goal⟩ := by
  have hposition := position_advances hw
  have hmove : p.move d = e.goal := hl.move_eq
  have hlast : m.canMove (e.advances ds).position d = true := by
    rw [hposition, Maze.canMove_iff, hmove]
    exact ⟨hl, hopen⟩
  have harrived : (e.advances ds).position.move d = (e.advances ds).goal := by
    rw [hposition, hmove, goal_advances]
  rw [run_along h hw hgoal hrest,
    run_arrived ((result_advances e ds).trans h) (rest_advances hrest) hlast harrived, hposition,
    hmove]

/-! ## The path of a run that arrived -/

/-- **A run that arrives leaves the moves of a walk behind it.** -/
theorem exists_walk_of_run_reached (h : e.result = none) (hopen : m.isOpen e.position)
    (hreached : (e.run m).1.ending = .reached) :
    ∃ ds, m.Walk e.position ds e.goal ∧ (e.run m).1.path.size = e.path.size + ds.length := by
  generalize hrest : e.rest = moves
  induction moves generalizing e with
  | nil =>
    rw [run_usedUp h hrest] at hreached
    cases hreached
  | cons d moves ih =>
    cases hmove : m.canMove e.position d with
    | false =>
      rw [run_barred h hrest hmove] at hreached
      cases hreached
    | true =>
      obtain ⟨hl, hnext⟩ := Maze.canMove_iff.1 hmove
      by_cases hgoal : e.position.move d = e.goal
      · rw [run_arrived h hrest hmove hgoal, ← hgoal]
        exact ⟨[d], .go hopen hl (.stay hnext), Array.size_push _⟩
      · rw [run_advance h hrest hmove hgoal] at hreached ⊢
        obtain ⟨ds, hw, hsize⟩ := ih (e := e.advance d) h hnext hreached (rest_advance hrest)
        refine ⟨d :: ds, .go hopen hl hw, ?_⟩
        rw [hsize, advance, Array.size_push, List.length_cons, Nat.add_assoc, Nat.add_comm 1]

end Execution

variable {m : Maze} {start goal : Position} {ds : List Direction}

/-- **A route solves its maze**, whatever moves come behind it, and the path of the
character is the path of the route. -/
theorem execute_of_shortestRoute? (hroute : m.shortestRoute? start goal = some ds)
    (hne : start ≠ goal) (more : List Direction) :
    execute m start goal (ds ++ more) = ⟨.reached, (start.path ds).toArray⟩ := by
  obtain ⟨hw, hnodup⟩ := Maze.simpleWalk_of_shortestRoute? hroute
  rcases List.eq_nil_or_concat ds with rfl | ⟨before, d, rfl⟩
  · cases hw
    exact absurd rfl hne
  · rw [List.concat_eq_append] at hw hnodup ⊢
    obtain ⟨p, hbefore, hl, hopen⟩ := hw.of_snoc
    have hpath := hbefore.path_snoc hl
    rw [hpath, List.nodup_append] at hnodup
    have hgoal : goal ∉ (start.path before).tail := fun hmem =>
      hnodup.2.2 goal (List.mem_of_mem_tail hmem) goal List.mem_cons_self rfl
    have hrest : (Execution.start start goal (before ++ [d] ++ more)).rest = before ++ d :: more :=
      List.append_assoc ..
    rw [execute, Execution.run_along_to_goal rfl hbefore hgoal hl hopen hrest, hpath]
    refine congrArg (Outcome.mk .reached) (Array.toList_inj.1 ?_)
    rw [Array.toList_push, Execution.path_advances, List.toList_toArray]
    show [start] ++ (start.path before).tail ++ [goal] = start.path before ++ [goal]
    rw [List.singleton_append, ← Position.path_eq_cons]

/-- **Solving and running agree.**  Between two different positions of any maze, a
route followed by any other moves makes a program that arrives at the goal; its
path has one position more than the route has moves, no position twice, and the
goal at its end.  And if some program arrives from an open start, there is a
route, which has fewer moves than the program's path has positions.  In a
generated puzzle the start and the goal are different, and there is a route. -/
theorem solving_agrees_with_running :
    (∀ (maze : Maze) (start goal : Position), start ≠ goal →
      (∀ ds, maze.shortestRoute? start goal = some ds → ∀ more, ∃ path,
        execute maze start goal (ds ++ more) = ⟨.reached, path⟩ ∧
          path.size = ds.length + 1 ∧ path.toList.Nodup ∧ path.back? = some goal) ∧
      (maze.isOpen start → ∀ program path,
        execute maze start goal program = ⟨.reached, path⟩ →
          ∃ ds, maze.shortestRoute? start goal = some ds ∧ ds.length + 1 ≤ path.size)) ∧
    ∀ (width height : Nat) (seed : String) (puzzle : Puzzle),
      Puzzle.generate width height seed = .ok puzzle →
        puzzle.start ≠ puzzle.goal ∧
          ∃ ds, puzzle.maze.shortestRoute? puzzle.start puzzle.goal = some ds := by
  refine ⟨fun maze start goal hne => ⟨fun ds hroute more => ?_, fun hopen program path hrun => ?_⟩,
    fun width height seed puzzle hpuzzle => ?_⟩
  · obtain ⟨hw, hnodup⟩ := Maze.simpleWalk_of_shortestRoute? hroute
    refine ⟨_, execute_of_shortestRoute? hroute hne more, ?_, hnodup, ?_⟩
    · rw [List.size_toArray, Position.length_path]
    · rw [List.back?_toArray, hw.getLast?_path]
  · have hreached : ((Execution.start start goal program).run maze).1 = ⟨.reached, path⟩ := hrun
    obtain ⟨es, hw, hsize⟩ := Execution.exists_walk_of_run_reached
      (e := .start start goal program) rfl hopen (congrArg Outcome.ending hreached)
    obtain ⟨ds, hds⟩ := Maze.exists_shortestRoute? hw
    have hle := length_le_of_rank_le ((Maze.least_of_shortestRoute? hds).2 es hw)
    rw [hreached] at hsize
    have hpath : path.size = 1 + es.length := hsize
    exact ⟨ds, hds, by omega⟩
  · obtain ⟨hplayable, -⟩ := Puzzle.playable_of_generate hpuzzle
    exact ⟨hplayable.start_ne_goal, hplayable.solvable⟩

/-- Round the block of walls a route of seven moves arrives also with a move behind
it, and a program that first goes to and fro arrives with ten positions. -/
theorem solving_agrees_with_running_ring :
    (∃ path, execute Maze.ring (.nearest 0 0) (.nearest 4 3)
        ([.down, .down, .down, .right, .right, .right, .right] ++ [.up]) = ⟨.reached, path⟩ ∧
      path.size = 8 ∧ path.toList.Nodup) ∧
    (∃ ds, Maze.ring.shortestRoute? (.nearest 0 0) (.nearest 4 3) = some ds ∧
      ds.length + 1 ≤ 10) ∧
    ∃ puzzle, Puzzle.generate 5 4 "maze" = .ok puzzle ∧ puzzle.start ≠ puzzle.goal := by
  have hne : Position.nearest 0 0 ≠ .nearest 4 3 := by decide
  have hroute : Maze.ring.shortestRoute? (.nearest 0 0) (.nearest 4 3) =
      some [.down, .down, .down, .right, .right, .right, .right] := by decide +kernel
  let detour := execute Maze.ring (.nearest 0 0) (.nearest 4 3)
    [.down, .up, .down, .down, .down, .right, .right, .right, .right]
  have hdetour : detour = ⟨.reached, detour.path⟩ ∧ detour.path.size = 10 := by decide +kernel
  obtain ⟨hsolves, hshorter⟩ :=
    solving_agrees_with_running.1 Maze.ring (.nearest 0 0) (.nearest 4 3) hne
  obtain ⟨path, hpath, hsize, hnodup, -⟩ := hsolves _ hroute [.up]
  obtain ⟨ds, hds, hle⟩ := hshorter (by decide) _ _ hdetour.1
  rw [hdetour.2] at hle
  obtain ⟨-, puzzle, -, -, hpuzzle, -⟩ := @Puzzle.generate_of_le 5 4 (by decide) (by decide) "maze"
  exact ⟨⟨path, hpath, hsize, hnodup⟩, ⟨ds, hds, hle⟩, puzzle, hpuzzle,
    (solving_agrees_with_running.2 5 4 "maze" puzzle hpuzzle).1⟩

end Labyrinth
