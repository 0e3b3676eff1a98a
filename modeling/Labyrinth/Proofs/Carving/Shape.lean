/-
# The shape of a carved grid

The sides of a grid fix which of its cells carving enters, and which cells it
leaves as walls, whatever the seed.  It enters the cells with odd coordinates and
opens them (`Maze.carved_isLattice`), and the seed only says which of the cells
halfway between two of them are opened as well.  A cell with two even coordinates
is not halfway between any, and neither are the cells of the first column and row.
Nor are those of the last column of an odd width or of the last row of an odd
height, where no odd cell follows (`Maze.inside_of_odd_or_halfway`).  So all these
are walls (`Maze.carved_shape`).
-/

import Labyrinth.Proofs.Carving.Coverage

namespace Labyrinth
namespace Maze

variable {m : Maze} {p q r : Position} {d : Direction} {width height x y : Nat}

/-! ## Between odd cells -/

/-- Of two cells of the grid with odd coordinates that are two moves apart, one
right of the other or one below the other, the cell in column `x` and row `y` lies
halfway. -/
def Halfway (width height x y : Nat) : Prop :=
  ∃ x₁ y₁ x₂ y₂ : Nat, (x₁ < width ∧ y₁ < height) ∧ (x₂ < width ∧ y₂ < height) ∧
    (x₁ % 2 = 1 ∧ y₁ % 2 = 1) ∧ (x₂ % 2 = 1 ∧ y₂ % 2 = 1) ∧
    (x₂ = x₁ + 2 ∧ y₂ = y₁ ∨ x₂ = x₁ ∧ y₂ = y₁ + 2) ∧ 2 * x = x₁ + x₂ ∧ 2 * y = y₁ + y₂

/-- One move on from an odd cell of the grid, and one move before an odd cell. -/
theorem Halfway.of_leads (hp : p.IsOdd) (hr : r.IsOdd)
    (hpin : (0 ≤ p.x ∧ p.x < width) ∧ (0 ≤ p.y ∧ p.y < height))
    (hrin : (0 ≤ r.x ∧ r.x < width) ∧ (0 ≤ r.y ∧ r.y < height))
    (hpq : p.Leads d q) (hqr : q.Leads d r) (hx : q.x = x) (hy : q.y = y) :
    Halfway width height x y := by
  obtain ⟨hpx, hpy⟩ := hp
  obtain ⟨hrx, hry⟩ := hr
  obtain ⟨hqx, hqy⟩ := hpq
  obtain ⟨hx', hy'⟩ := hqr
  cases d with
  | right | down =>
    refine ⟨p.x.toNat, p.y.toNat, r.x.toNat, r.y.toNat, ?_⟩
    simp only [Direction.dx, Direction.dy] at hqx hqy hx' hy'
    omega
  | left | up =>
    -- the walk goes against the axis, so its end comes first
    refine ⟨r.x.toNat, r.y.toNat, p.x.toNat, p.y.toNat, ?_⟩
    simp only [Direction.dx, Direction.dy] at hqx hqy hx' hy'
    omega

/-- **Where carving leaves walls:** a cell with two even coordinates, or of a border
with no odd cell behind it, is neither odd nor halfway. -/
theorem inside_of_odd_or_halfway
    (h : (x % 2 = 1 ∧ y % 2 = 1) ∨ Halfway width height x y) :
    ¬(x % 2 = 0 ∧ y % 2 = 0) ∧ (x ≠ 0 ∧ y ≠ 0) ∧
      ¬(width % 2 = 1 ∧ x + 1 = width) ∧ ¬(height % 2 = 1 ∧ y + 1 = height) := by
  rcases h with hodd | ⟨x₁, y₁, x₂, y₂, h₁, h₂, hodd₁, hodd₂, hapart, hxmid, hymid⟩ <;>
    omega

/-! ## Carved grids -/

/-- **Every carved grid is on the lattice, and the odd cells are the entered ones**,
also where a side is too short for an odd cell and nothing is carved. -/
theorem carved_isLattice (width height : Nat) (seed : String) :
    ((carved width height seed).width = width ∧ (carved width height seed).height = height) ∧
      (carved width height seed).IsLattice ∧
      ∀ p, (carved width height seed).isVisited p ↔
        p.IsOdd ∧ (0 ≤ p.x ∧ p.x < width) ∧ (0 ≤ p.y ∧ p.y < height) := by
  by_cases h : 2 ≤ width ∧ 2 ≤ height
  · have hcovered := covered_carved h.1 h.2 seed
    refine ⟨⟨hcovered.width_eq, hcovered.height_eq⟩, hcovered.isLattice, fun p => ?_⟩
    rw [hcovered.isVisited_iff, Grid.exists_get?_iff, hcovered.width_eq, hcovered.height_eq]
  · rw [carved_of_lt (by omega) seed]
    refine ⟨⟨rfl, rfl⟩, ⟨fun p hp => ?_, fun p hp => ?_, fun p hp => ?_⟩, fun p => ?_⟩
    · exact absurd hp (isVisited_blank width height p)
    · exact absurd hp (isVisited_blank width height p)
    · exact absurd hp (isOpen_blank width height p)
    · refine iff_of_false (isVisited_blank width height p) ?_
      rintro ⟨⟨hx, hy⟩, hin⟩
      omega

/-- A carved maze is laid out. -/
theorem isLaidOut_carved (width height : Nat) (seed : String) :
    (carved width height seed).IsLaidOut := by
  by_cases h : 2 ≤ width ∧ 2 ≤ height
  · exact (covered_carved h.1 h.2 seed).isLaidOut
  · rw [carved_of_lt (by omega) seed]
    exact isLaidOut_blank width height

/-- It fits if its sides are in range. -/
theorem fits_carved (hw : width ≤ 2147483647) (hh : height ≤ 2147483647) (seed : String) :
    (carved width height seed).Fits := by
  obtain ⟨⟨hwidth, hheight⟩, -⟩ := carved_isLattice width height seed
  exact ⟨hwidth.symm ▸ hw, hheight.symm ▸ hh⟩

/-- An open cell was entered, or lies halfway between two odd cells. -/
theorem isVisited_or_halfway {seed : String} (h : (carved width height seed).isOpen q)
    (hx : q.x = x) (hy : q.y = y) :
    (carved width height seed).isVisited q ∨ Halfway width height x y := by
  obtain ⟨-, hlattice, hvisited⟩ := carved_isLattice width height seed
  rcases hlattice.between q h with hq | ⟨p, d, r, hp, hpq, hqr, hr⟩
  · exact Or.inl hq
  · obtain ⟨hpodd, hpin⟩ := (hvisited p).1 hp
    obtain ⟨hrodd, hrin⟩ := (hvisited r).1 hr
    exact Or.inr (.of_leads hpodd hrodd hpin hrin hpq hqr hx hy)

/-- The cell in column `x` and row `y`, as it is read at its position. -/
theorem Fits.exists_reading (h : m.Fits) (hx : x < m.width) (hy : y < m.height) :
    ∃ p : Position, p.x = x ∧ p.y = y ∧ m.isVisited p = m.rows[y][x].visited ∧
      m.isOpen p = !m.rows[y][x].isWall := by
  obtain ⟨p, hpx, hpy, hp⟩ := h.exists_position ⟨x, hx⟩ ⟨y, hy⟩
  refine ⟨p, hpx, hpy, ?_, ?_⟩
  · rw [isVisited, hp]
    rfl
  · rw [isOpen, hp]
    rfl

/-- Carving marks the odd cells, opens what it marks, and opens no other cell that is
not halfway. -/
theorem carved_cell (hw : width ≤ 2147483647) (hh : height ≤ 2147483647) (seed : String)
    (hx : x < (carved width height seed).width) (hy : y < (carved width height seed).height) :
    ((carved width height seed).rows[y][x].visited = true ↔ x % 2 = 1 ∧ y % 2 = 1) ∧
    ((carved width height seed).rows[y][x].visited = true →
      (carved width height seed).rows[y][x].isWall = false) ∧
    ((carved width height seed).rows[y][x].isWall = false →
      (carved width height seed).rows[y][x].visited = true ∨ Halfway width height x y) := by
  obtain ⟨⟨hwidth, hheight⟩, hlattice, hvisited⟩ := carved_isLattice width height seed
  obtain ⟨p, hpx, hpy, hmark, hopen⟩ := (fits_carved hw hh seed).exists_reading hx hy
  rw [← hmark]
  refine ⟨?_, fun hv => ?_, fun ho => isVisited_or_halfway ?_ hpx hpy⟩
  · rw [hvisited, Position.IsOdd, hpx, hpy]
    omega
  · have ho := hlattice.isOpen p hv
    rwa [hopen, Bool.not_eq_true'] at ho
  · rw [hopen, ho]
    rfl

/-- **What carving makes of a cell.**  In every grid whose cells all have positions,
and for every seed, the cell in column `x` and row `y` is marked exactly if both
are odd, and then it is open.  An open cell that is not marked lies halfway between
two cells of the grid with odd coordinates.  So every cell with two even coordinates
is a wall, and so are the first column and the first row, the last column if the width
is odd, and the last row if the height is odd. -/
theorem carved_shape (hw : width ≤ 2147483647) (hh : height ≤ 2147483647) (seed : String) :
    let m := carved width height seed
    (m.width = width ∧ m.height = height) ∧
    ∀ x y (hx : x < m.width) (hy : y < m.height),
      (m.rows[y][x].visited = true ↔ x % 2 = 1 ∧ y % 2 = 1) ∧
      (m.rows[y][x].visited = true → m.rows[y][x].isWall = false) ∧
      (m.rows[y][x].isWall = false → m.rows[y][x].visited = false → Halfway width height x y) ∧
      (x % 2 = 0 ∧ y % 2 = 0 → m.rows[y][x].isWall = true) ∧
      (x = 0 ∨ y = 0 → m.rows[y][x].isWall = true) ∧
      (width % 2 = 1 ∧ x + 1 = width → m.rows[y][x].isWall = true) ∧
      (height % 2 = 1 ∧ y + 1 = height → m.rows[y][x].isWall = true) := by
  intro m
  refine ⟨(carved_isLattice width height seed).1, fun x y hx hy => ?_⟩
  obtain ⟨hodd, hopened, hopen⟩ := carved_cell hw hh seed hx hy
  -- what is neither odd nor halfway is a wall
  have hclosed : ¬((x % 2 = 1 ∧ y % 2 = 1) ∨ Halfway width height x y) →
      m.rows[y][x].isWall = true := by
    intro hno
    rw [← Bool.not_eq_false]
    exact fun ho => hno ((hopen ho).imp_left hodd.1)
  refine ⟨hodd, hopened, fun ho hv => (hopen ho).resolve_left (Bool.eq_false_iff.1 hv),
    fun h => hclosed fun hin => ?_, fun h => hclosed fun hin => ?_,
    fun h => hclosed fun hin => ?_, fun h => hclosed fun hin => ?_⟩
  all_goals
    obtain ⟨heven, hfirst, hright, hbottom⟩ := inside_of_odd_or_halfway hin
    omega

/-- In a grid of five by four cells the cell halfway between `(1, 3)` and `(3, 3)` is
open, though this is the last row; in the last column that row is a wall. -/
theorem carved_shape_five_by_four :
    ∃ (hw : (carved 5 4 "maze").width = 5) (hh : (carved 5 4 "maze").height = 4),
      (carved 5 4 "maze").rows[1][3].visited = true ∧
      (carved 5 4 "maze").rows[3][1].isWall = false ∧
      (carved 5 4 "maze").rows[3][2].isWall = false ∧ Halfway 5 4 2 3 ∧
      (carved 5 4 "maze").rows[2][2].isWall = true ∧
      (carved 5 4 "maze").rows[0][1].isWall = true ∧
      (carved 5 4 "maze").rows[3][4].isWall = true := by
  obtain ⟨⟨hw, hh⟩, hcell⟩ := @carved_shape 5 4 (by decide) (by decide) "maze"
  have hbetween : ∀ (hx : 2 < (carved 5 4 "maze").width) (hy : 3 < (carved 5 4 "maze").height),
      (carved 5 4 "maze").rows[3][2].isWall = false ∧
        (carved 5 4 "maze").rows[3][2].visited = false := by
    decide +kernel
  obtain ⟨ho, hv⟩ := hbetween (by omega) (by omega)
  have hmark : ∀ x y (hx : x < (carved 5 4 "maze").width) (hy : y < (carved 5 4 "maze").height),
      x % 2 = 1 ∧ y % 2 = 1 → (carved 5 4 "maze").rows[y][x].visited = true :=
    fun x y hx hy h => (hcell x y hx hy).1.2 h
  refine ⟨hw, hh, hmark 3 1 _ _ ⟨rfl, rfl⟩, (hcell 1 3 _ _).2.1 (hmark 1 3 _ _ ⟨rfl, rfl⟩), ho,
    (hcell 2 3 _ _).2.2.1 ho hv, (hcell 2 2 _ _).2.2.2.1 ⟨rfl, rfl⟩,
    (hcell 1 0 _ _).2.2.2.2.1 (Or.inr rfl), (hcell 4 3 _ _).2.2.2.2.2.1 ⟨rfl, rfl⟩⟩

end Maze
end Labyrinth
