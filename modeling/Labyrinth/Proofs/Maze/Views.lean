/-
# The views of a maze

A maze is read in four ways: row by row as it is stored, at positions, as the list of its
open cells, and from its far end.  `Maze.ViewsAgree` says that these show the same maze.
A position inside the grid leads to a cell of the rows, and to the one that has its
coordinates.  The list has the open positions in the order of the rows, the scan from the
far end finds the last of them, and whether a maze is degenerate can be told from any two
open positions.

This holds of every maze whose cells know where they are and have positions
(`Maze.IsLaidOut.viewsAgree`), and so of every maze that openings make of walls
(`Maze.viewsAgree_ofOpenings`).
-/

import Labyrinth.Proofs.Maze.Openings

namespace Labyrinth
namespace Maze

variable {m : Maze} {p : Position} {width height : Nat}

/-- The cells of a maze as a list of rows, the top row first. -/
def table (m : Maze) : List (List Cell) := m.rows.toList.map Vector.toList

/-- Whatever way a maze is read, it is the same maze. -/
structure ViewsAgree (m : Maze) : Prop where
  /-- There are as many rows as the maze is high. -/
  length_table : m.table.length = m.height
  /-- Each row has as many cells as the maze is wide. -/
  length_row : ∀ row ∈ m.table, row.length = m.width
  /-- In each column of each row there is a cell that knows where it is. -/
  exists_cell : ∀ x y, x < m.width → y < m.height →
    ∃ c, m.table[y]?.bind (·[x]?) = some c ∧ c.x = x ∧ c.y = y
  /-- A position has indexes exactly if it is inside the grid. -/
  index?_eq_none_iff : ∀ p,
    m.index? p = none ↔ ¬((0 ≤ p.x ∧ p.x < m.width) ∧ (0 ≤ p.y ∧ p.y < m.height))
  /-- At its indexes there is a cell of the rows, and it has the coordinates of the
  position. -/
  get?_of_index? : ∀ p x y, m.index? p = some (x, y) →
    ∃ c, m.table[y.val]?.bind (·[x.val]?) = some c ∧ m.get? p = some c ∧ p.x = c.x ∧ p.y = c.y
  /-- There is no cell exactly where the position is outside the grid. -/
  get?_eq_none_iff : ∀ p,
    m.get? p = none ↔ ¬((0 ≤ p.x ∧ p.x < m.width) ∧ (0 ≤ p.y ∧ p.y < m.height))
  /-- The list has the open positions and no others. -/
  mem_openCells_iff : ∀ p, p ∈ m.openCells ↔ m.isOpen p
  /-- It has each of them once. -/
  nodup_openCells : m.openCells.Nodup
  /-- It goes from row to row, and in a row from left to right. -/
  pairwise_openCells : m.openCells.Pairwise fun p q => p.y < q.y ∨ p.y = q.y ∧ p.x < q.x
  /-- The last open cell is the first one on the way back through the rows. -/
  lastOpen?_eq_find? :
    m.lastOpen? = ((m.table.reverse.flatMap List.reverse).find? (!·.isWall)).map Cell.position
  /-- It is the last one of the list. -/
  lastOpen?_eq_getLast? : m.lastOpen? = m.openCells.getLast?
  /-- It is missing exactly if no cell is open. -/
  lastOpen?_eq_none_iff : m.lastOpen? = none ↔ ∀ p, ¬m.isOpen p
  /-- A maze is degenerate unless two open cells differ in their columns, and two in
  their rows. -/
  isDegenerate_eq_false_iff : m.isDegenerate = false ↔
    (∃ a b, m.isOpen a ∧ m.isOpen b ∧ a.x ≠ b.x) ∧ (∃ a b, m.isOpen a ∧ m.isOpen b ∧ a.y ≠ b.y)

/-- The table has the cells of the rows. -/
theorem getElem?_table (m : Maze) {x y : Nat} (hx : x < m.width) (hy : y < m.height) :
    m.table[y]?.bind (·[x]?) = some m.rows[y][x] := by
  simp [table, hx, hy]

/-- A position has no index exactly outside the maze. -/
theorem index?_eq_none_iff (m : Maze) (p : Position) :
    m.index? p = none ↔ ¬((0 ≤ p.x ∧ p.x < m.width) ∧ (0 ≤ p.y ∧ p.y < m.height)) := by
  rw [← Grid.get?_eq_none_iff, Grid.get?, Option.map_eq_none_iff]

/-- The cells from the far end are the rows from the bottom, each from its end. -/
theorem reverse_toList (m : Maze) : m.toList.reverse = m.table.reverse.flatMap List.reverse := by
  rw [Grid.toList, List.flatMap_def, ← table, List.reverse_flatten, List.flatMap_def,
    List.map_reverse]

/-- There is no last open cell exactly if there is no open cell at all. -/
theorem lastOpen?_eq_none_iff (hl : m.IsLaidOut) (hf : m.Fits) :
    m.lastOpen? = none ↔ ∀ p, ¬m.isOpen p := by
  rw [m.lastOpen?_eq_getLast?, List.getLast?_eq_none_iff, List.eq_nil_iff_forall_not_mem]
  simp only [Maze.mem_openCells_iff hl hf]

/-- **If the cells of a maze know where they are, its views agree.** -/
theorem IsLaidOut.viewsAgree (hl : m.IsLaidOut) (hf : m.Fits) : m.ViewsAgree where
  length_table := by simp [table]
  length_row := by
    intro row hrow
    obtain ⟨cells, -, rfl⟩ := List.mem_map.1 hrow
    exact cells.length_toList
  exists_cell := by
    intro x y hx hy
    obtain ⟨p, hpx, hpy, hp⟩ := hf.exists_position ⟨x, hx⟩ ⟨y, hy⟩
    obtain ⟨hcx, hcy⟩ := hl p _ hp
    refine ⟨_, m.getElem?_table hx hy, ?_, ?_⟩
    · exact Int.ofNat_inj.1 (hcx.symm.trans hpx)
    · exact Int.ofNat_inj.1 (hcy.symm.trans hpy)
  index?_eq_none_iff := m.index?_eq_none_iff
  get?_of_index? := by
    intro p x y hp
    obtain ⟨hpx, hpy⟩ := Grid.index?_eq_some_iff.1 hp
    have hc := Grid.get?_eq_some_iff.2 ⟨x, y, hpx, hpy, rfl⟩
    exact ⟨_, m.getElem?_table x.isLt y.isLt, hc, hl p _ hc⟩
  get?_eq_none_iff _ := Grid.get?_eq_none_iff
  mem_openCells_iff _ := Maze.mem_openCells_iff hl hf
  nodup_openCells := Maze.nodup_openCells hl hf
  pairwise_openCells := Maze.pairwise_openCells hl hf
  lastOpen?_eq_find? := by rw [lastOpen?, reverse_toList]
  lastOpen?_eq_getLast? := m.lastOpen?_eq_getLast?
  lastOpen?_eq_none_iff := Maze.lastOpen?_eq_none_iff hl hf
  isDegenerate_eq_false_iff := Maze.isDegenerate_eq_false_iff hl hf

/-- **However a maze is opened, its views agree.**  Take sides for which all cells have
positions, and any openings, inside the grid or outside.  The maze that they make of
walls has these sides, and whatever way it is read, it is the same maze. -/
theorem viewsAgree_ofOpenings (hw : width ≤ 2147483647) (hh : height ≤ 2147483647)
    (openings : List Opening) :
    ((ofOpenings width height openings).width = width ∧
      (ofOpenings width height openings).height = height) ∧
    (ofOpenings width height openings).ViewsAgree :=
  ⟨⟨width_ofOpenings .., height_ofOpenings ..⟩,
    (isLaidOut_ofOpenings width height openings).viewsAgree (fits_ofOpenings hw hh openings)⟩

/-- A grid with three open cells, one of them opened twice, and an opening outside: its
open cells are listed once each, and it is not degenerate.  A grid without columns has
no last open cell. -/
theorem viewsAgree_ofOpenings_four_by_three :
    let m := ofOpenings 4 3 [.carve (.nearest 3 2), .visit (.nearest 1 0), .carve (.nearest 0 2),
      .carve (.nearest 1 0), .visit (.nearest 4 0)]
    m.openCells = [.nearest 1 0, .nearest 0 2, .nearest 3 2] ∧ m.lastOpen? = some (.nearest 3 2) ∧
      m.get? (.nearest 4 0) = none ∧ m.isDegenerate = false ∧ m.ViewsAgree ∧
      (ofOpenings 0 3 [.carve (.nearest 0 1)]).ViewsAgree ∧
      (ofOpenings 0 3 [.carve (.nearest 0 1)]).lastOpen? = none := by
  intro m
  obtain ⟨-, hviews⟩ := @viewsAgree_ofOpenings 4 3 (by decide) (by decide)
    [.carve (.nearest 3 2), .visit (.nearest 1 0), .carve (.nearest 0 2), .carve (.nearest 1 0),
      .visit (.nearest 4 0)]
  obtain ⟨-, hempty⟩ := @viewsAgree_ofOpenings 0 3 (by decide) (by decide)
    [.carve (.nearest 0 1)]
  have hcells : m.openCells = [.nearest 1 0, .nearest 0 2, .nearest 3 2] := by decide +kernel
  refine ⟨hcells, ?_, (hviews.get?_eq_none_iff _).2 (by decide +kernel),
    hviews.isDegenerate_eq_false_iff.2 ?_, hviews, hempty, hempty.lastOpen?_eq_none_iff.2 ?_⟩
  · exact hviews.lastOpen?_eq_getLast?.trans (congrArg List.getLast? hcells)
  · have hopen : ∀ p ∈ m.openCells, m.isOpen p := fun p => (hviews.mem_openCells_iff p).1
    rw [hcells] at hopen
    exact ⟨⟨.nearest 1 0, .nearest 0 2, hopen _ (by decide), hopen _ (by decide), by decide⟩,
      .nearest 1 0, .nearest 0 2, hopen _ (by decide), hopen _ (by decide), by decide⟩
  · intro p hp
    have hmem := (hempty.mem_openCells_iff p).2 hp
    have hnil : (ofOpenings 0 3 [.carve (.nearest 0 1)]).openCells = [] := by decide +kernel
    rw [hnil] at hmem
    cases hmem

end Maze
end Labyrinth
