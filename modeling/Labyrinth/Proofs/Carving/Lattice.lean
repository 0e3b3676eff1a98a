/-
# The lattice that carving leaves

Carving enters cells with two odd coordinates only, and every other cell that it
opens lies between two of them (`Maze.IsLattice`).  So two cells between never
touch, and a cell with odd coordinates touches no other open cells than those
that lead to an entered cell.  That makes each of the two cells of a dig a leaf,
first the cell between and then the cell entered, and a dig keeps a maze perfect
(`Maze.IsLattice.isPerfect_dig`).
-/

import Labyrinth.Carving
import Labyrinth.Proofs.Maze.OpenCells
import Labyrinth.Proofs.Maze.Perfect

namespace Labyrinth

/-! ## Parity -/

namespace Position

/-- Both coordinates are odd. -/
def IsOdd (p : Position) : Prop := p.x % 2 = 1 ∧ p.y % 2 = 1

variable {p q r s t : Position} {d e : Direction}

/-- Every move changes the parity of the sum of the coordinates. -/
theorem Leads.sum_mod_two (h : p.Leads d q) : (q.x + q.y) % 2 = 1 - (p.x + p.y) % 2 := by
  have hd := d.displacement
  obtain ⟨hx, hy⟩ := h
  omega

/-- The coordinates of an odd position have an even sum. -/
theorem IsOdd.sum_mod_two (h : p.IsOdd) : (p.x + p.y) % 2 = 0 := by
  obtain ⟨hx, hy⟩ := h
  omega

/-- One move leaves the odd cells. -/
theorem Leads.not_isOdd (h : p.Leads d q) (hp : p.IsOdd) : ¬q.IsOdd := by
  intro hq
  have hsum := h.sum_mod_two
  rw [hp.sum_mod_two, hq.sum_mod_two] at hsum
  omega

/-- Two moves in one direction come back to the odd cells. -/
theorem Leads.isOdd (h : p.Leads d q) (h' : q.Leads d r) (hp : p.IsOdd) : r.IsOdd := by
  have hd := d.displacement
  obtain ⟨hx, hy⟩ := h
  obtain ⟨hx', hy'⟩ := h'
  obtain ⟨hpx, hpy⟩ := hp
  exact ⟨by omega, by omega⟩

/-- A cell between two odd cells touches no other odd cell. -/
theorem Leads.eq_or_eq (h : p.Leads d q) (h' : q.Leads d r) (hp : p.IsOdd) (ht : t.IsOdd)
    (he : t.Leads e q) : t = p ∨ t = r := by
  have hd := d.displacement
  have hde := e.displacement
  obtain ⟨hx, hy⟩ := h
  obtain ⟨hx', hy'⟩ := h'
  obtain ⟨hpx, hpy⟩ := hp
  obtain ⟨htx, hty⟩ := ht
  obtain ⟨hex, hey⟩ := he
  rw [Position.ext_iff, Position.ext_iff]
  omega

/-- Two cells next to odd cells do not touch. -/
theorem Leads.not_leads {f : Direction} (hq : p.Leads d q) (hr : s.Leads e r) (hp : p.IsOdd)
    (hs : s.IsOdd) : ¬r.Leads f q := by
  intro h
  have hsum := h.sum_mod_two
  rw [hq.sum_mod_two, hr.sum_mod_two, hp.sum_mod_two, hs.sum_mod_two] at hsum
  omega

/-- From an odd cell the way to the cell two moves away is exact, unless it leads
nowhere. -/
theorem IsOdd.leads_offset (hp : p.IsOdd) (hx : 0 ≤ p.x) (hy : 0 ≤ p.y) (h : p.offset d 2 ≠ p) :
    p.Leads d (p.offset d 1) ∧ (p.offset d 1).Leads d (p.offset d 2) := by
  have hcx := p.isCoordinate_x
  have hcy := p.isCoordinate_y
  obtain ⟨hpx, hpy⟩ := hp
  rw [Ne, Position.ext_iff] at h
  -- at the upper limit of the range two moves right or down lead nowhere, and an odd
  -- coordinate does not lie one below the limit
  cases d <;> simp only [Leads, offset, nearest, clamp, Direction.dx, Direction.dy] at h ⊢ <;> omega

end Position

/-! ## Digs -/

namespace Maze

variable {m : Maze} {p q r t w : Position} {d e : Direction}

/-- Between two cells of the grid lies a cell of the grid. -/
theorem exists_get?_between (hp : ∃ c, m.get? p = some c) (hw : p.Leads d w) (ht : w.Leads d t)
    (hc : ∃ c, m.get? t = some c) : ∃ c, m.get? w = some c := by
  have hd := d.displacement
  rw [Grid.exists_get?_iff] at hp hc ⊢
  obtain ⟨hwx, hwy⟩ := hw
  obtain ⟨htx, hty⟩ := ht
  omega

/-- A dig opens two cells, the one it leads to and the one in between. -/
theorem isOpen_dig (hw : ∃ c, m.get? (p.offset d 1) = some c)
    (ht : ∃ c, m.get? (p.offset d 2) = some c) :
    (m.dig p d).isOpen q ↔ q = p.offset d 2 ∨ q = p.offset d 1 ∨ m.isOpen q := by
  obtain ⟨b, hb⟩ := hw
  obtain ⟨c, hc⟩ := (exists_get?_carve m (p.offset d 1) _).2 ht
  rw [dig, isOpen_visit hc, isOpen_carve hb]

/-- It visits only the cell that it leads to. -/
theorem isVisited_dig (ht : ∃ c, m.get? (p.offset d 2) = some c) :
    (m.dig p d).isVisited q ↔ q = p.offset d 2 ∨ m.isVisited q := by
  obtain ⟨c, hc⟩ := (exists_get?_carve m (p.offset d 1) _).2 ht
  rw [dig, isVisited_visit hc, isVisited_carve]

/-- All other unvisited cells stay unvisited. -/
theorem isUnvisited_dig (m : Maze) (p : Position) (d : Direction) (q : Position) :
    (m.dig p d).isUnvisited q ↔ q ≠ p.offset d 2 ∧ m.isUnvisited q := by
  rw [dig, isUnvisited_visit, isUnvisited_carve]

/-- A dig keeps the width. -/
@[simp]
theorem width_dig (m : Maze) (p : Position) (d : Direction) : (m.dig p d).width = m.width := by
  rw [dig, visit, Grid.width_modify, carve, Grid.width_modify]

/-- A dig keeps the height. -/
@[simp]
theorem height_dig (m : Maze) (p : Position) (d : Direction) : (m.dig p d).height = m.height := by
  rw [dig, visit, Grid.height_modify, carve, Grid.height_modify]

/-- A dig keeps the layout. -/
theorem IsLaidOut.dig (h : m.IsLaidOut) (p : Position) (d : Direction) : (m.dig p d).IsLaidOut :=
  (h.carve _).visit _

/-! ## The lattice -/

/-- Carving went through open cells with odd coordinates, and every other open
cell lies between two of these. -/
structure IsLattice (m : Maze) : Prop where
  isOdd : ∀ p, m.isVisited p → p.IsOdd
  isOpen : ∀ p, m.isVisited p → m.isOpen p
  between : ∀ q, m.isOpen q → m.isVisited q ∨
    ∃ p d r, m.isVisited p ∧ p.Leads d q ∧ q.Leads d r ∧ m.isVisited r

namespace IsLattice

/-- An unvisited cell two moves from an entered one is exactly two moves away. -/
theorem leads_offset (h : m.IsLattice) (hp : m.isVisited p) (hu : m.isUnvisited (p.offset d 2)) :
    p.Leads d (p.offset d 1) ∧ (p.offset d 1).Leads d (p.offset d 2) := by
  have hin := Grid.exists_get?_iff.1 (exists_get?_of_isVisited hp)
  refine (h.isOdd p hp).leads_offset hin.1.1 hin.2.1 fun he => ?_
  rw [he] at hu
  exact not_isUnvisited_of_isVisited hp hu

/-- An odd cell next to an open cell that is not odd was entered. -/
theorem isVisited_of_leads (h : m.IsLattice) (ht : t.IsOdd) (hl : t.Leads e q) (hq : m.isOpen q) :
    m.isVisited t := by
  rcases h.between q hq with hv | ⟨p, d, r, hp, hpq, hqr, hr⟩
  · exact absurd (h.isOdd q hv) (hl.not_isOdd ht)
  · rcases hpq.eq_or_eq hqr (h.isOdd p hp) ht hl with rfl | rfl
    · exact hp
    · exact hr

/-- A cell with two even coordinates stays a wall. -/
theorem not_even_of_isOpen (h : m.IsLattice) (hq : m.isOpen q) :
    ¬(q.x % 2 = 0 ∧ q.y % 2 = 0) := by
  rintro ⟨hx, hy⟩
  rcases h.between q hq with hv | ⟨p, d, r, hp, hpq, -, -⟩
  · obtain ⟨hodd, -⟩ := h.isOdd q hv
    omega
  · have hsum := hpq.sum_mod_two
    have hodd := (h.isOdd p hp).sum_mod_two
    omega

/-- An odd cell that was not visited is still a wall. -/
theorem not_isOpen_target (h : m.IsLattice) (ht : t.IsOdd) (hu : m.isUnvisited t) :
    ¬m.isOpen t := by
  intro ho
  rcases h.between t ho with hv | ⟨p, d, r, hp, hpt, -, -⟩
  · exact not_isUnvisited_of_isVisited hv hu
  · exact hpt.not_isOdd (h.isOdd p hp) ht

/-- So is the cell in front of it, seen from a visited one: an open cell between two odd
ones joins visited cells. -/
theorem not_isOpen_between (h : m.IsLattice) (hp : m.isVisited p) (hw : p.Leads d w)
    (ht : w.Leads d t) (hu : m.isUnvisited t) : ¬m.isOpen w := by
  intro ho
  have hodd := hw.isOdd ht (h.isOdd p hp)
  exact not_isUnvisited_of_isVisited (h.isVisited_of_leads hodd ht.back ho) hu

/-- The cell between is a leaf of the maze. -/
theorem leaf_between (h : m.IsLattice) (hp : m.isVisited p) (hw : p.Leads d w)
    (ht : w.Leads d t) (hu : m.isUnvisited t) : Leaf m (m.carve w) p d w where
  isOpen_stem := h.isOpen p hp
  leads := hw
  not_isOpen := h.not_isOpen_between hp hw ht hu
  stem_eq r e ho hl := by
    have hodd := h.isOdd p hp
    rcases h.between r ho with hr | ⟨q, f, s, hq, hqr, -, -⟩
    · rcases hw.eq_or_eq ht hodd (h.isOdd r hr) hl with he | rfl
      · exact he
      · exact absurd hu (not_isUnvisited_of_isVisited hr)
    · exact absurd hl (hw.not_leads hqr hodd (h.isOdd q hq))
  isOpen_iff r := by
    obtain ⟨c, hc⟩ := exists_get?_between (exists_get?_of_isVisited hp) hw ht
      (exists_get?_of_isUnvisited hu)
    exact isOpen_carve hc

/-- Then the cell entered is a leaf that hangs from the cell between. -/
theorem leaf_target (h : m.IsLattice) (hp : m.isVisited p) (hw : p.Leads d w)
    (ht : w.Leads d t) (hu : m.isUnvisited t) :
    Leaf (m.carve w) ((m.carve w).visit t) w d t := by
  have hodd := hw.isOdd ht (h.isOdd p hp)
  have hbetween := (h.leaf_between hp hw ht hu).isOpen_iff
  refine ⟨(hbetween w).2 (Or.inl rfl), ht, fun ho => ?_, fun r e ho hl => ?_, fun r => ?_⟩
  · rcases (hbetween t).1 ho with he | ho
    · exact ht.ne he
    · exact h.not_isOpen_target hodd hu ho
  · rcases (hbetween r).1 ho with he | ho
    · exact he
    · exact absurd hu (not_isUnvisited_of_isVisited (h.isVisited_of_leads hodd hl.back ho))
  · obtain ⟨c, hc⟩ := (exists_get?_carve m w t).2 (exists_get?_of_isUnvisited hu)
    exact isOpen_visit hc

/-- **A dig keeps a maze perfect.** -/
theorem isPerfect_dig (h : m.IsLattice) (hm : m.IsPerfect) (hp : m.isVisited p)
    (hu : m.isUnvisited (p.offset d 2)) : (m.dig p d).IsPerfect := by
  obtain ⟨hw, ht⟩ := h.leads_offset hp hu
  have hbetween := hm.of_leaf (h.leaf_between hp hw ht hu)
  exact hbetween.of_leaf (h.leaf_target hp hw ht hu)

/-- **A dig keeps to the lattice.** -/
theorem dig (h : m.IsLattice) (hp : m.isVisited p) (hu : m.isUnvisited (p.offset d 2)) :
    (m.dig p d).IsLattice := by
  obtain ⟨hw, ht⟩ := h.leads_offset hp hu
  have hct := exists_get?_of_isUnvisited hu
  have hcw := exists_get?_between (exists_get?_of_isVisited hp) hw ht hct
  constructor
  · intro q hq
    rcases (isVisited_dig hct).1 hq with rfl | hq
    · exact hw.isOdd ht (h.isOdd p hp)
    · exact h.isOdd q hq
  · intro q hq
    rw [isOpen_dig hcw hct]
    rcases (isVisited_dig hct).1 hq with rfl | hq
    · exact Or.inl rfl
    · exact Or.inr (Or.inr (h.isOpen q hq))
  · intro q hq
    simp only [isVisited_dig hct]
    rcases (isOpen_dig hcw hct).1 hq with rfl | rfl | ho
    · exact Or.inl (Or.inl rfl)
    · exact Or.inr ⟨p, d, p.offset d 2, Or.inr hp, hw, ht, Or.inl rfl⟩
    · rcases h.between q ho with hv | ⟨a, e, b, ha, hl, hl', hb⟩
      · exact Or.inl (Or.inr hv)
      · exact Or.inr ⟨a, e, b, Or.inr ha, hl, hl', Or.inr hb⟩

end IsLattice

end Maze

end Labyrinth
