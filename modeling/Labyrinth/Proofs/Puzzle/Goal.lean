/-
# Where a generated puzzle starts and ends

A puzzle is generated exactly if both sides are at least four and in range, and
then from the maze of the given seed (`Puzzle.generate_eq_ok_iff`).  Its
character starts in `(1, 1)` and its goal is next to the bottom right corner, or
else on the last open cell.  The last open cell is known without the seed, since no
open cell lies behind the last odd column or below the last odd row, and where
these two cross a cell was entered (`Maze.Covered.lastOpen?_eq`).

With two odd sides the cell next to the corner is this same cell, and with two even
sides both its coordinates are even and it is a wall.  Only for an odd and an even
side the seed decides between the two (`Puzzle.generate_goal`).  Neither is `(1, 1)`,
so a generated puzzle is never solved before it begins
(`Puzzle.playable_of_generate`).
-/

import Labyrinth.Proofs.Puzzle.Generation

namespace Labyrinth

namespace Maze

variable {m : Maze} {width height : Nat}

/-- **The last open cell lies in the last odd column and the last odd row.** -/
theorem Covered.lastOpen?_eq (h : m.Covered width height) (hf : m.Fits) (hw : 2 ≤ width)
    (hh : 2 ≤ height) {last : Position} (hx : last.x = 2 * (width / 2) - 1)
    (hy : last.y = 2 * (height / 2) - 1) : m.lastOpen? = some last := by
  have hodd : last.IsOdd := ⟨by omega, by omega⟩
  have hopen : m.isOpen last := h.isOpen_of_isOdd hodd (by omega) (by omega)
  -- the cell found is within the bounds and not before `last`, which leaves only `last`
  obtain ⟨q, hq⟩ := exists_lastOpen? h.isLaidOut hf hopen
  have hbounds := h.bounds_of_isOpen (isOpen_of_lastOpen? h.isLaidOut hf hq)
  rcases le_of_lastOpen? h.isLaidOut hf hq hopen with rfl | hbefore
  · exact hq
  · omega

end Maze

namespace Puzzle

variable {width height : Nat} {seed : String} {m : Maze} {goal : Position} {puzzle : Puzzle}

/-- **Which puzzles are generated.** -/
theorem generate_eq_ok_iff : generate width height seed = .ok puzzle ↔
    (4 ≤ width ∧ width ≤ 2147483647) ∧ (4 ≤ height ∧ height ≤ 2147483647) ∧
      ofMaze? (Maze.carved width height seed) = some puzzle := by
  constructor
  · intro h
    by_cases hfits : (1 ≤ width ∧ width ≤ 2147483647) ∧ (1 ≤ height ∧ height ≤ 2147483647)
    · by_cases hlt : width < 4 ∨ height < 4
      · rw [generate_of_lt hfits.1 hfits.2 hlt] at h
        cases h
      · obtain ⟨-, made, -, -, hmade, hmaze, -⟩ :=
          @generate_of_le width height (by omega) (by omega) seed
        rw [hmade] at h
        obtain rfl := Except.ok.inj h
        exact ⟨by omega, by omega, hmaze⟩
    · rw [generate_of_not_fits hfits] at h
      cases h
  · rintro ⟨hw, hh, h⟩
    obtain ⟨-, made, -, -, hmade, hmaze, -⟩ := generate_of_le hw hh seed
    rw [h] at hmaze
    rw [hmade, Option.some.inj hmaze]

/-- A puzzle that can be played, and that takes at least one move. -/
structure Playable (p : Puzzle) : Prop where
  isOpen_start : p.maze.isOpen p.start
  isOpen_goal : p.maze.isOpen p.goal
  start_ne_goal : p.start ≠ p.goal
  solvable : ∃ ds, p.solution? = some ds

/-- A program that solves a puzzle has moves. -/
theorem Playable.solution_ne_nil (h : puzzle.Playable) {ds : List Direction}
    (hds : puzzle.solution? = some ds) : ds ≠ [] := by
  rintro rfl
  have hw := (Maze.least_of_shortestRoute? hds).1.getLast?_path
  exact h.start_ne_goal (Option.some.inj hw)

/-- The two cells of which one is the goal, in a maze with both sides at least four. -/
theorem goal?_eq (h : m.Covered width height) (hf : m.Fits) (hw : 4 ≤ width) (hh : 4 ≤ height) :
    ∃ corner last : Position,
      (corner.x = width - 2 ∧ corner.y = height - 2) ∧
      (last.x = 2 * (width / 2) - 1 ∧ last.y = 2 * (height / 2) - 1) ∧
      m.lastOpen? = some last ∧ goal? m = some (if m.isOpen corner then corner else last) := by
  have hwidth := h.width_eq
  have hheight := h.height_eq
  obtain ⟨hfw, hfh⟩ := hf
  let corner : Position := .nearest (m.width - 2) (m.height - 2)
  let last : Position := .nearest (2 * (width / 2) - 1) (2 * (height / 2) - 1)
  have hcorner : corner.x = width - 2 ∧ corner.y = height - 2 := by
    simp only [corner, Position.nearest, Position.clamp]
    omega
  have hlast : last.x = 2 * (width / 2) - 1 ∧ last.y = 2 * (height / 2) - 1 := by
    simp only [last, Position.nearest, Position.clamp]
    omega
  have hlastOpen : m.lastOpen? = some last :=
    h.lastOpen?_eq ⟨hfw, hfh⟩ (by omega) (by omega) hlast.1 hlast.2
  refine ⟨corner, last, hcorner, hlast, hlastOpen, ?_⟩
  show (if m.isOpen corner then some corner else m.lastOpen?) = _
  rw [hlastOpen]
  exact (apply_ite some _ _ _).symm

/-- The goal of a maze with both sides at least four is not where the character
starts. -/
theorem goal?_ne_origin (h : m.Covered width height) (hf : m.Fits) (hw : 4 ≤ width)
    (hh : 4 ≤ height) (hgoal : goal? m = some goal) : goal ≠ Carving.origin := by
  obtain ⟨corner, last, ⟨hcx, -⟩, ⟨hlx, -⟩, -, heq⟩ := goal?_eq h hf hw hh
  rw [heq] at hgoal
  obtain rfl := Option.some.inj hgoal
  intro horigin
  have hx : (if m.isOpen corner then corner else last).x = 1 := congrArg Position.x horigin
  split at hx <;> omega

/-- **A generated puzzle can be played, and it is not solved yet.** -/
theorem playable_of_generate (h : generate width height seed = .ok puzzle) :
    puzzle.Playable ∧ puzzle.start = Carving.origin ∧
      puzzle.maze = Maze.carved width height seed := by
  obtain ⟨hw, hh, hmaze⟩ := generate_eq_ok_iff.1 h
  have hcovered : (Maze.carved width height seed).Covered width height :=
    Maze.covered_carved (by omega) (by omega) seed
  obtain ⟨-, ⟨hcarved, hstart, hgoal⟩, ds, hds⟩ := ofMaze?_eq_some_iff.1 hmaze
  have hne := goal?_ne_origin hcovered (hcovered.fits hw.2 hh.2) hw.1 hh.1 hgoal
  have hwalk := (Maze.least_of_shortestRoute? hds).1
  rw [← hstart] at hne
  exact ⟨⟨hwalk.isOpen_first, hwalk.isOpen_last, hne.symm, ds, hds⟩, hstart, hcarved⟩

/-- The maze of a generated puzzle is the carved one, and every cell of it has a
position. -/
theorem covered_of_generate (h : generate width height seed = .ok puzzle) :
    puzzle.maze.Covered width height ∧ puzzle.maze.Fits := by
  obtain ⟨hw, hh, -⟩ := generate_eq_ok_iff.1 h
  have hcovered : (Maze.carved width height seed).Covered width height :=
    Maze.covered_carved (by omega) (by omega) seed
  rw [← (playable_of_generate h).2.2] at hcovered
  exact ⟨hcovered, hcovered.fits hw.2 hh.2⟩

/-- **Where the goal is.**  Let both sides be at least four and in range.  Whatever the
seed, a puzzle is generated that starts in `(1, 1)` and ends next to the bottom right
corner where this cell is open, and else in the last odd column and the last odd row.
There the last open cell is, and every other one lies above it or left of it in the
same row.  The goal is open, can be reached from the start and is another cell.  With
two odd sides it is next to the corner, and with two even sides in the corner. -/
theorem generate_goal (hw : 4 ≤ width ∧ width ≤ 2147483647)
    (hh : 4 ≤ height ∧ height ≤ 2147483647) (seed : String) :
    ∃ (puzzle : Puzzle) (corner last : Position),
      generate width height seed = .ok puzzle ∧
      (corner.x = width - 2 ∧ corner.y = height - 2) ∧
      (last.x = 2 * (width / 2) - 1 ∧ last.y = 2 * (height / 2) - 1) ∧
      puzzle.goal = (if puzzle.maze.isOpen corner then corner else last) ∧
      (puzzle.maze.lastOpen? = some last ∧ puzzle.maze.isOpen last ∧
        ∀ p, puzzle.maze.isOpen p → p = last ∨ p.y < last.y ∨ p.y = last.y ∧ p.x < last.x) ∧
      puzzle.maze.isOpen puzzle.goal ∧
      (∃ ds, puzzle.solution? = some ds ∧ puzzle.maze.Walk puzzle.start ds puzzle.goal) ∧
      (puzzle.start = .nearest 1 1 ∧ puzzle.goal ≠ puzzle.start) ∧
      (width % 2 = 1 ∧ height % 2 = 1 →
        puzzle.goal.x = width - 2 ∧ puzzle.goal.y = height - 2) ∧
      (width % 2 = 0 ∧ height % 2 = 0 →
        puzzle.goal.x = width - 1 ∧ puzzle.goal.y = height - 1) := by
  obtain ⟨-, puzzle, -, -, hpuzzle, hmaze, -⟩ := generate_of_le hw hh seed
  obtain ⟨hplayable, hstart, -⟩ := playable_of_generate hpuzzle
  obtain ⟨hcovered, hfits⟩ := covered_of_generate hpuzzle
  obtain ⟨-, ⟨hcarved, -, hgoal⟩, ds, hds⟩ := ofMaze?_eq_some_iff.1 hmaze
  obtain ⟨corner, last, hcorner, hlast, hlastOpen, heq⟩ := goal?_eq hcovered hfits hw.1 hh.1
  rw [← hcarved, heq] at hgoal
  have hend : puzzle.goal = if puzzle.maze.isOpen corner then corner else last :=
    (Option.some.inj hgoal).symm
  refine ⟨puzzle, corner, last, hpuzzle, hcorner, hlast, hend,
    ⟨hlastOpen, Maze.isOpen_of_lastOpen? hcovered.isLaidOut hfits hlastOpen,
      fun p hp => Maze.le_of_lastOpen? hcovered.isLaidOut hfits hlastOpen hp⟩,
    hplayable.isOpen_goal, ⟨ds, hds, (Maze.least_of_shortestRoute? hds).1⟩,
    ⟨hstart, hplayable.start_ne_goal.symm⟩, fun hodd => ?_, fun heven => ?_⟩
  · -- in an odd grid the last odd column and row are those next to the border
    have hsame : last = corner := Position.ext (by omega) (by omega)
    rw [hend, hsame, ite_self]
    exact hcorner
  · have hwall : ¬puzzle.maze.isOpen corner := fun hopen =>
      hcovered.isLattice.not_even_of_isOpen hopen (by omega)
    rw [hend, if_neg hwall]
    omega

/-- Of the mazes of seven by six cells that of the seed `maze` ends next to the corner,
in `(5, 4)`, and that of the seed `10` has a wall there and ends one row further down.
With six by eight cells the goal is in the corner. -/
theorem generate_goal_seven_by_six :
    (∃ puzzle, generate 7 6 "maze" = .ok puzzle ∧ puzzle.goal = .nearest 5 4) ∧
    (∃ puzzle, generate 7 6 "10" = .ok puzzle ∧ puzzle.goal = .nearest 5 5) ∧
    ∃ puzzle, generate 6 8 "maze" = .ok puzzle ∧ puzzle.goal = .nearest 5 7 := by
  have hmaze : (Maze.carved 7 6 "maze").isOpen (.nearest 5 4) := by decide +kernel
  have hten : ¬(Maze.carved 7 6 "10").isOpen (.nearest 5 4) := by decide +kernel
  refine ⟨?_, ?_, ?_⟩
  · obtain ⟨puzzle, corner, last, hpuzzle, ⟨hx, hy⟩, -, hgoal, -⟩ :=
      @generate_goal 7 6 (by decide) (by decide) "maze"
    obtain rfl : corner = .nearest 5 4 := Position.ext hx hy
    rw [← (playable_of_generate hpuzzle).2.2] at hmaze
    exact ⟨puzzle, hpuzzle, hgoal.trans (if_pos hmaze)⟩
  · obtain ⟨puzzle, corner, last, hpuzzle, ⟨hx, hy⟩, ⟨hlx, hly⟩, hgoal, -⟩ :=
      @generate_goal 7 6 (by decide) (by decide) "10"
    obtain rfl : corner = .nearest 5 4 := Position.ext hx hy
    obtain rfl : last = .nearest 5 5 := Position.ext hlx hly
    rw [← (playable_of_generate hpuzzle).2.2] at hten
    exact ⟨puzzle, hpuzzle, hgoal.trans (if_neg hten)⟩
  · obtain ⟨puzzle, corner, last, hpuzzle, -, -, -, -, -, -, -, -, heven⟩ :=
      @generate_goal 6 8 (by decide) (by decide) "maze"
    obtain ⟨hx, hy⟩ := heven (by decide)
    exact ⟨puzzle, hpuzzle, Position.ext hx hy⟩

end Puzzle
end Labyrinth
