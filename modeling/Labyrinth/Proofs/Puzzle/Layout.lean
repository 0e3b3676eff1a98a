/-
# Rows of text as an encoding

Writing a maze as rows of text and reading rows as a maze are inverse to each other, as
far as rows tell: what is lost is which cells were visited.  In a carved maze this is
nothing new.  Whatever the seed, they are the odd cells of the grid, so two carved mazes
with the same sides and the same rows are the same maze, and so are those of two puzzles
(`Maze.rows_encode_layout`).
-/

import Labyrinth.Proofs.Maze.Text
import Labyrinth.Proofs.Puzzle.Goal
import Labyrinth.Proofs.Carving.Shape

namespace Labyrinth
namespace Maze

variable {width height : Nat} {seed seed' : String}

/-- **The rows tell a carved maze from all others with its sides.** -/
theorem carved_eq_of_toRows (hw : width ≤ 2147483647) (hh : height ≤ 2147483647)
    (h : (carved width height seed).toRows = (carved width height seed').toRows) :
    carved width height seed = carved width height seed' := by
  obtain ⟨⟨hwidth, hheight⟩, -, hvisited⟩ := carved_isLattice width height seed
  obtain ⟨⟨hwidth', hheight'⟩, -, hvisited'⟩ := carved_isLattice width height seed'
  refine ext_of_toRows (isLaidOut_carved width height seed) (isLaidOut_carved width height seed')
    (fits_carved hw hh seed) (hwidth.trans hwidth'.symm) (hheight.trans hheight'.symm) h
    fun p => ?_
  rw [Bool.eq_iff_iff, hvisited, hvisited']

/-- **Rows of text and wall layouts encode each other.**  Take sides for which all cells
have positions.  A maze with at least one row, made of walls by any openings, is read
back from its rows with its sides, the coordinates of its cells and its walls, but with
no cell visited.  A layout, which is any list of rows of one length over `#` and `.`, is
written again by the maze that is read from it.  Reading is to carve the points, each at
its column and row, in a grid of walls that is as wide as the first row.  Of the mazes
that carving makes in a grid, and of those of its puzzles, no two have the same rows
unless they are the same, with their visited cells. -/
theorem rows_encode_layout (hw : width ≤ 2147483647) (hh : height ≤ 2147483647) :
    (∀ openings, 0 < height →
      ofRows (ofOpenings width height openings).toRows =
        (ofOpenings width height openings).map Cell.unvisited) ∧
    (∀ rows, IsLayout rows → (ofRows rows).toRows = rows) ∧
    (∀ rows, RowsFit rows →
      ofRows rows = (pointsOf rows).foldl carve (blank (rows.headD "").length rows.length)) ∧
    (∀ seed seed', (carved width height seed).toRows = (carved width height seed').toRows →
      carved width height seed = carved width height seed') ∧
    ∀ seed seed' puzzle puzzle', Puzzle.generate width height seed = .ok puzzle →
      Puzzle.generate width height seed' = .ok puzzle' →
      puzzle.maze.toRows = puzzle'.maze.toRows → puzzle.maze = puzzle'.maze := by
  refine ⟨fun openings hpos => ?_, fun rows h => h.toRows_ofRows,
    fun rows h => ofRows_eq_foldl_carve h, fun seed seed' h => carved_eq_of_toRows hw hh h,
    fun seed seed' puzzle puzzle' hpuzzle hpuzzle' h => ?_⟩
  · refine ofRows_toRows (isLaidOut_ofOpenings _ _ _) (fits_ofOpenings hw hh openings) ?_
    rw [height_ofOpenings]
    exact hpos
  · obtain ⟨-, -, hmaze⟩ := Puzzle.playable_of_generate hpuzzle
    obtain ⟨-, -, hmaze'⟩ := Puzzle.playable_of_generate hpuzzle'
    rw [hmaze, hmaze'] at h ⊢
    exact carved_eq_of_toRows hw hh h

/-- A visited cell is read back as an open one.  A layout with a point in its last
column and row is written again, and so is one of two empty rows.  The seeds `maze` and
`d` have the same rows, so they have the same maze. -/
theorem rows_encode_layout_five_by_four :
    let openings : List Opening :=
      [.visit (.nearest 1 2), .carve (.nearest 4 3), .carve (.nearest 7 (-1))]
    ofRows (ofOpenings 5 4 openings).toRows = (ofOpenings 5 4 openings).map Cell.unvisited ∧
    (ofRows ["#..", "..#", "##."]).toRows = ["#..", "..#", "##."] ∧
    (ofRows ["", ""]).toRows = ["", ""] ∧
    ofRows ["#.", "..#", ""] =
      [.nearest 1 0, .nearest 0 1, .nearest 1 1].foldl carve (blank 2 3) ∧
    carved 5 4 "maze" = carved 5 4 "d" ∧
    ∃ puzzle puzzle', Puzzle.generate 5 4 "maze" = .ok puzzle ∧
      Puzzle.generate 5 4 "d" = .ok puzzle' ∧ puzzle.maze = puzzle'.maze := by
  intro openings
  obtain ⟨hread, hwritten, hcarve, hcarved, hpuzzles⟩ :=
    @rows_encode_layout 5 4 (by decide) (by decide)
  have hrows : (carved 5 4 "maze").toRows = (carved 5 4 "d").toRows := by decide +kernel
  obtain ⟨-, puzzle, -, -, hpuzzle, -, hmaze⟩ :=
    @Puzzle.generate_of_le 5 4 (by decide) (by decide) "maze"
  obtain ⟨-, puzzle', -, -, hpuzzle', -, hmaze'⟩ :=
    @Puzzle.generate_of_le 5 4 (by decide) (by decide) "d"
  refine ⟨hread _ (by decide), hwritten _ ⟨by decide +kernel, by decide +kernel⟩,
    hwritten _ ⟨by decide +kernel, by decide +kernel⟩, hcarve _ ⟨by decide, by decide +kernel⟩,
    hcarved _ _ hrows, puzzle, puzzle', hpuzzle, hpuzzle',
    hpuzzles _ _ _ _ hpuzzle hpuzzle' ?_⟩
  rw [hmaze, hmaze']
  exact hrows

end Maze
end Labyrinth
