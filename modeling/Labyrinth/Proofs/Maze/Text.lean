/-
# Rows of text and wall layouts

Rows of text are read at positions, like a maze: the column of a position counts the
characters of a row, and its row counts the rows (`charIn?`).  What is written about the
cells of a maze, row by row, is found again in this way (`Maze.charIn?_map`).  So the
rows of a maze tell its wall layout and nothing else: they give the maze back with no
cell visited (`Maze.ofRows_toRows`).  Conversely, the maze drawn by rows of one length,
of walls and points, has these rows (`IsLayout.toRows_ofRows`).

To read rows is to carve their points, one after the other, in a grid of walls
(`Maze.ofRows_eq_foldl_carve`).
-/

import Labyrinth.Maze.Text
import Labyrinth.Proofs.Maze.Openings

namespace Labyrinth

/-- The character of rows of text in the column and the row of a position. -/
def charIn? (rows : List String) (p : Position) : Option Char :=
  if 0 ≤ p.x ∧ 0 ≤ p.y then rows[p.y.toNat]?.bind (·.toList[p.x.toNat]?) else none

/-- The same cell, but not visited. -/
def Cell.unvisited (c : Cell) : Cell := { c with visited := false }

/-- The mark of a cell tells whether it is a wall. -/
theorem Cell.mark_inj {c d : Cell} : c.mark = d.mark ↔ c.isWall = d.isWall := by
  unfold mark
  cases c.isWall <;> cases d.isWall <;> simp

/-- Every mark but the point is that of a wall. -/
theorem Cell.mark_ne_point_iff {c : Cell} : c.mark ≠ '.' ↔ c.isWall = true := by
  unfold mark
  cases c.isWall <;> simp

variable {m m' : Maze} {rows : List String} {p : Position}

namespace Maze

/-! ## From cells to characters -/

/-- **What is written about the cells is read at their positions.** -/
theorem charIn?_map (m : Maze) (write : Cell → Char) (p : Position) :
    charIn? (m.rows.toList.map fun row => String.ofList (row.toList.map write)) p =
      (m.get? p).map write := by
  unfold charIn?
  cases hp : m.get? p with
  | some c =>
    obtain ⟨x, y, hx, hy, rfl⟩ := Grid.get?_eq_some_iff.1 hp
    simp [hx, hy]
  | none =>
    rw [Grid.get?_eq_none_iff] at hp
    split
    · by_cases hy : p.y.toNat < m.height
      · have hx : m.width ≤ p.x.toNat := by omega
        simp [hy, hx]
      · simp [Nat.le_of_not_lt hy]
    · rfl

/-- **The rows are read like the maze**: at every position stands the mark of its cell. -/
theorem charIn?_toRows (m : Maze) (p : Position) :
    charIn? m.toRows p = (m.get? p).map Cell.mark :=
  m.charIn?_map Cell.mark p

/-- There is a text for each row. -/
theorem length_toRows (m : Maze) : m.toRows.length = m.height := by
  simp [toRows]

/-- It is as long as the maze is wide. -/
theorem length_of_mem_toRows {row : String} (h : row ∈ m.toRows) : row.length = m.width := by
  obtain ⟨cells, -, rfl⟩ := List.mem_map.1 h
  simp

/-- **Two mazes with the same rows differ in their visited cells at most.** -/
theorem ext_of_toRows (hl : m.IsLaidOut) (hl' : m'.IsLaidOut) (hf : m.Fits)
    (hwidth : m.width = m'.width) (hheight : m.height = m'.height) (hrows : m.toRows = m'.toRows)
    (hvisits : ∀ p, m.isVisited p = m'.isVisited p) : m = m' := by
  refine hf.ext hwidth hheight fun p => ?_
  have hmark := m.charIn?_toRows p
  rw [hrows, charIn?_toRows] at hmark
  have hvisited := hvisits p
  rw [isVisited, isVisited] at hvisited
  cases hc : m.get? p with
  | none =>
    rw [hc, Option.map_none, Option.map_eq_none_iff] at hmark
    exact hmark.symm
  | some c =>
    rw [hc, Option.map_some, Option.map_eq_some_iff] at hmark
    obtain ⟨c', hc', hmark⟩ := hmark
    obtain ⟨hx, hy⟩ := hl p c hc
    obtain ⟨hx', hy'⟩ := hl' p c' hc'
    rw [hc, hc', Option.any_some, Option.any_some] at hvisited
    rw [hc', Option.some.injEq]
    obtain ⟨x, y, isWall, visited⟩ := c
    obtain ⟨x', y', isWall', visited'⟩ := c'
    obtain rfl : isWall = isWall' := (Cell.mark_inj.1 hmark).symm
    obtain rfl : visited = visited' := hvisited
    simp only at hx hy hx' hy'
    rw [Cell.mk.injEq]
    exact ⟨by omega, by omega, rfl, rfl⟩

/-! ## From characters to cells -/

/-- The maze of rows is the grid of what is read in them. -/
theorem ofRows_eq_ofFn (rows : List String) :
    ofRows rows = .ofFn (rows.headD "").length rows.length fun x y =>
      ⟨x, y, (rows[y]?.bind (·.toList[x]?)) ≠ some '.', false⟩ := by
  have hwidth : ((rows.map String.toList).headD []).length = (rows.headD "").length := by
    cases rows with
    | nil => rfl
    | cons row rows => exact String.length_toList
  have hmark : ∀ x y : Nat, (rows.map String.toList)[y]?.bind (·[x]?) =
      rows[y]?.bind (·.toList[x]?) := by
    intro x y
    rw [List.getElem?_map, Option.bind_map]
    rfl
  rw [ofRows, hwidth]
  simp only [hmark]

/-- The first row decides on the width. -/
theorem width_ofRows (rows : List String) : (ofRows rows).width = (rows.headD "").length := by
  rw [ofRows_eq_ofFn]
  rfl

/-- The number of rows is the height. -/
theorem height_ofRows (rows : List String) : (ofRows rows).height = rows.length := rfl

/-- **A point is an open cell**, and all else is a wall. -/
theorem get?_ofRows (rows : List String) (p : Position) :
    (ofRows rows).get? p =
      if (0 ≤ p.x ∧ p.x < (rows.headD "").length) ∧ (0 ≤ p.y ∧ p.y < rows.length) then
        some ⟨p.x.toNat, p.y.toNat, charIn? rows p ≠ some '.', false⟩
      else none := by
  rw [ofRows_eq_ofFn, Grid.get?_ofFn]
  split
  · rename_i hin
    rw [charIn?, if_pos ⟨hin.1.1, hin.2.1⟩]
  · rfl

/-- **The rows of a maze tell its wall layout.**  Read back, they are the maze with no
cell visited.  A maze without rows does not tell its width. -/
theorem ofRows_toRows (hl : m.IsLaidOut) (hf : m.Fits) (hpos : 0 < m.height) :
    ofRows m.toRows = m.map Cell.unvisited := by
  have hwidth : (m.toRows.headD "").length = m.width := by
    cases hrows : m.toRows with
    | nil =>
      have hlength := m.length_toRows
      rw [hrows, List.length_nil] at hlength
      omega
    | cons row rows =>
      rw [List.headD_cons]
      exact length_of_mem_toRows (hrows.symm ▸ List.mem_cons_self)
  symm
  refine Fits.ext hf (m := m.map Cell.unvisited) ?_ ?_ fun p => ?_
  · exact hwidth.symm.trans (width_ofRows _).symm
  · exact m.length_toRows.symm
  · rw [Grid.get?_map, get?_ofRows, hwidth, length_toRows, charIn?_toRows]
    cases hc : m.get? p with
    | none => rw [if_neg (Grid.get?_eq_none_iff.1 hc)]; rfl
    | some c =>
      obtain ⟨hx, hy⟩ := hl p c hc
      rw [if_pos (Grid.exists_get?_iff.1 ⟨c, hc⟩), Option.map_some, Option.map_some,
        Option.some.injEq, Cell.unvisited, Cell.mk.injEq]
      refine ⟨by omega, by omega, ?_, rfl⟩
      rw [Bool.eq_iff_iff, decide_eq_true_iff, Ne, Option.some.injEq]
      exact Cell.mark_ne_point_iff.symm

end Maze

/-! ## Layouts -/

/-- Rows of one length, of walls and points only. -/
structure IsLayout (rows : List String) : Prop where
  length_eq : ∀ row ∈ rows, ∀ row' ∈ rows, row.length = row'.length
  marks : ∀ row ∈ rows, row.toList.all fun a => a = '#' ∨ a = '.'

/-- **The maze drawn by a layout has its rows.** -/
theorem IsLayout.toRows_ofRows (h : IsLayout rows) : (Maze.ofRows rows).toRows = rows := by
  rw [Maze.ofRows_eq_ofFn, Maze.toRows, Grid.ofFn]
  refine List.ext_getElem (by simp) fun y hy hy' => String.toList_inj.1 ?_
  have hwidth : (rows.headD "").length = rows[y].length := by
    cases rows with
    | nil => cases hy'
    | cons row rows => exact h.length_eq _ List.mem_cons_self _ (List.getElem_mem hy')
  refine List.ext_getElem (by simpa [String.length_toList] using hwidth) fun x hx hx' => ?_
  have hmark : rows[y].toList[x] = '#' ∨ rows[y].toList[x] = '.' :=
    of_decide_eq_true
      (List.all_eq_true.1 (h.marks _ (List.getElem_mem hy')) _ (List.getElem_mem hx'))
  simp only [List.getElem_map, Vector.getElem_toList, Vector.getElem_ofFn, String.toList_ofList,
    Cell.mark, List.getElem?_eq_getElem hy', Option.bind_some, List.getElem?_eq_getElem hx']
  rcases hmark with hwall | hpoint
  · simp [hwall]
  · simp [hpoint]

/-! ## Reading by carving -/

/-- The positions of the points in rows of text, row by row. -/
def pointsOf (rows : List String) : List Position :=
  rows.zipIdx.flatMap fun (row, y) =>
    (row.toList.zipIdx.filter (·.1 = '.')).map fun (_, x) => .nearest x y

/-- Every character has a position. -/
structure RowsFit (rows : List String) : Prop where
  height_le : rows.length ≤ 2147483647
  width_le : ∀ row ∈ rows, row.length ≤ 2147483647

/-- The points of rows are where a point is read. -/
theorem RowsFit.mem_pointsOf_iff (h : RowsFit rows) :
    p ∈ pointsOf rows ↔ charIn? rows p = some '.' := by
  simp only [pointsOf, List.mem_flatMap, List.mem_map, List.mem_filter, Prod.exists,
    List.mem_zipIdx_iff_getElem?, decide_eq_true_eq, charIn?]
  constructor
  · rintro ⟨row, y, hrow, a, x, ⟨ha, rfl⟩, rfl⟩
    obtain ⟨hx, -⟩ := List.getElem?_eq_some_iff.1 ha
    obtain ⟨hy, rfl⟩ := List.getElem?_eq_some_iff.1 hrow
    have hheight := h.height_le
    have hwidth := h.width_le _ (List.getElem_mem hy)
    rw [String.length_toList] at hx
    have hpx : (Position.nearest x y).x = x := Position.clamp_eq_self (by omega)
    have hpy : (Position.nearest x y).y = y := Position.clamp_eq_self (by omega)
    rw [hpx, hpy, if_pos ⟨by omega, by omega⟩, Int.toNat_natCast, Int.toNat_natCast, hrow,
      Option.bind_some, ha]
  · intro hpoint
    split at hpoint
    · rename_i hin
      obtain ⟨row, hrow, ha⟩ := Option.bind_eq_some_iff.1 hpoint
      refine ⟨row, p.y.toNat, hrow, '.', p.x.toNat, ⟨ha, rfl⟩, ?_⟩
      rw [Int.toNat_of_nonneg hin.1, Int.toNat_of_nonneg hin.2, Position.ext_iff]
      exact ⟨Position.clamp_eq_self p.isCoordinate_x, Position.clamp_eq_self p.isCoordinate_y⟩
    · cases hpoint

/-- **To read rows is to carve their points** in a grid of walls that is as wide as the
first row. -/
theorem Maze.ofRows_eq_foldl_carve (h : RowsFit rows) :
    ofRows rows = (pointsOf rows).foldl carve (blank (rows.headD "").length rows.length) := by
  have hcarve : (pointsOf rows).foldl carve (blank (rows.headD "").length rows.length) =
      ofOpenings (rows.headD "").length rows.length ((pointsOf rows).map .carve) := by
    rw [ofOpenings, List.foldl_map]
    rfl
  have hwidth : (rows.headD "").length ≤ 2147483647 := by
    cases rows with
    | nil => exact Nat.zero_le _
    | cons row rows => exact h.width_le _ List.mem_cons_self
  rw [hcarve]
  symm
  refine (fits_ofOpenings hwidth h.height_le _).ext ?_ ?_ fun p => ?_
  · rw [width_ofOpenings, width_ofRows]
  · rw [height_ofOpenings, height_ofRows]
  · have hwall : (((pointsOf rows).map Opening.carve).all fun o => o.position ≠ p) =
        decide (charIn? rows p ≠ some '.') := by
      rw [Bool.eq_iff_iff, decide_eq_true_iff, Ne, ← h.mem_pointsOf_iff, List.all_map,
        List.all_eq_true]
      constructor
      · intro hall hp
        exact of_decide_eq_true (hall p hp) rfl
      · intro hp q hq
        exact decide_eq_true fun he => hp (he ▸ hq)
    have hmark : ((pointsOf rows).map Opening.carve).contains (.visit p) = false := by simp
    rw [get?_ofOpenings, get?_ofRows, hwall, hmark]

end Labyrinth
