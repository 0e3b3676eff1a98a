/-
# Carving reaches every odd cell

A carving has left out no cell two moves from an entered one, so from `(1, 1)`
it came to every cell of the grid with odd coordinates, first along the row and
then along the column, whatever the seed (`Maze.Covered.isVisited_iff`).  Of
`width` columns every second one has an odd number, and of `height` rows every
second one, which counts the entered cells and with them the open ones
(`Maze.Covered.length_openCells`).
-/

import Labyrinth.Proofs.Carving.Growth
import Labyrinth.Proofs.Displacement

namespace Labyrinth

/-! ## Counting odd places -/

namespace Grid

variable {α β : Type}

/-- Lists that count `k` at each odd place and nothing at the even places. -/
theorem countP_flatMap_odd {P : α → Bool} {g : β → List α} {k : Nat} (xs : List β)
    (h : ∀ i (hi : i < xs.length), (g xs[i]).countP P = if i % 2 = 1 then k else 0) :
    (xs.flatMap g).countP P = xs.length / 2 * k := by
  match xs with
  | [] => simp
  | [a] =>
    have ha := h 0 (by simp)
    simpa using ha
  | a :: b :: xs =>
    have ha : (g a).countP P = 0 := h 0 (by simp)
    have hb : (g b).countP P = k := h 1 (by simp)
    have hxs := countP_flatMap_odd xs fun i hi => by
      have hi2 := h (i + 2) (by simpa using hi)
      simpa only [Nat.add_mod_right, List.getElem_cons_succ] using hi2
    calc ((a :: b :: xs).flatMap g).countP P
        = (g a).countP P + ((g b).countP P + (xs.flatMap g).countP P) := by
          rw [List.flatMap_cons, List.flatMap_cons, List.countP_append, List.countP_append]
      _ = (xs.length / 2 + 1) * k := by rw [ha, hb, hxs, Nat.succ_mul]; omega
      _ = (a :: b :: xs).length / 2 * k := by
          rw [List.length_cons, List.length_cons, Nat.add_div_right _ (Nat.succ_pos 1)]

/-- A property of the cells with two odd coordinates counts half the columns times
half the rows. -/
theorem count_odd {g : Grid α} {P : α → Bool}
    (h : ∀ x y (hx : x < g.width) (hy : y < g.height),
      P g.rows[y][x] = decide (x % 2 = 1 ∧ y % 2 = 1)) :
    g.count P = g.width / 2 * (g.height / 2) := by
  have hcell : ∀ x y (hx : x < g.width) (hy : y < g.height), [g.rows[y][x]].countP P =
      if x % 2 = 1 then (if y % 2 = 1 then 1 else 0) else 0 := by
    intro x y hx hy
    rw [List.countP_singleton, h x y hx hy]
    by_cases hox : x % 2 = 1
    · by_cases hoy : y % 2 = 1
      · rw [if_pos hox, if_pos hoy, if_pos (decide_eq_true ⟨hox, hoy⟩)]
      · rw [if_pos hox, if_neg hoy, if_neg fun ho => hoy (of_decide_eq_true ho).2]
    · rw [if_neg hox, if_neg fun ho => hox (of_decide_eq_true ho).1]
  have hrow : ∀ y (hy : y < g.height),
      g.rows[y].toList.countP P = if y % 2 = 1 then g.width / 2 else 0 := by
    intro y hy
    have hcount := countP_flatMap_odd (g := fun a => [a]) g.rows[y].toList fun x hx => by
      rw [Vector.length_toList] at hx
      rw [Vector.getElem_toList]
      exact hcell x y hx hy
    rw [List.flatMap_singleton', Vector.length_toList] at hcount
    rw [hcount]
    split
    · exact Nat.mul_one _
    · exact Nat.mul_zero _
  have hcount := countP_flatMap_odd g.rows.toList fun y hy => by
    rw [Vector.length_toList] at hy
    rw [Vector.getElem_toList]
    exact hrow y hy
  rw [Vector.length_toList] at hcount
  rw [count, toList, hcount, Nat.mul_comm]

end Grid

/-! ## Reaching the odd cells -/

namespace Position

variable {p q : Position} {d : Direction}

/-- Two moves from `p` to `q`, where `q` is a position. -/
theorem offset_two_eq (h : p.Reaches d 2 q) : p.offset d 2 = q :=
  h.offset_eq ((d.isCoordinate_shift_iff (by decide)).2 fun hlowest => absurd hlowest.1 (by decide))

/-- Every odd cell but `(1, 1)` lies two moves right of an odd cell, or two moves
below one. -/
theorem IsOdd.exists_before (hp : p.IsOdd) (hx : 0 ≤ p.x) (hy : 0 ≤ p.y)
    (hne : p ≠ Carving.origin) :
    ∃ (q : Position) (d : Direction), q.IsOdd ∧ q.offset d 2 = p ∧
      (0 ≤ q.x ∧ q.x ≤ p.x) ∧ (0 ≤ q.y ∧ q.y ≤ p.y) ∧ q.x + q.y < p.x + p.y := by
  have hpx := p.isCoordinate_x
  have hpy := p.isCoordinate_y
  obtain ⟨hox, hoy⟩ := hp
  by_cases h1 : p.x = 1
  · have h2 : p.y ≠ 1 := fun h2 => hne (Position.ext h1 h2)
    obtain ⟨y, hy2⟩ : ∃ y, y = p.y - 2 := ⟨_, rfl⟩
    refine ⟨⟨p.x, y, hpx, by omega⟩, .down, ⟨hox, ?_⟩, offset_two_eq ⟨?_, ?_⟩, ?_⟩ <;>
      simp only [Direction.dx, Direction.dy] <;> omega
  · obtain ⟨x, hx2⟩ : ∃ x, x = p.x - 2 := ⟨_, rfl⟩
    refine ⟨⟨x, p.y, by omega, hpy⟩, .right, ⟨?_, hoy⟩, offset_two_eq ⟨?_, ?_⟩, ?_⟩ <;>
      simp only [Direction.dx, Direction.dy] <;> omega

end Position

namespace Maze

variable {m : Maze} {p : Position} {width height : Nat}

/-- A grown maze that has left out no cell two moves from an entered one. -/
structure Covered (width height : Nat) (m : Maze) : Prop extends Grown width height m where
  closed : ∀ p d, m.isVisited p → ¬m.isUnvisited (p.offset d 2)

/-- **The maze of a seed is covered, in every grid with the cell `(1, 1)`.** -/
theorem covered_carved (hw : 2 ≤ width) (hh : 2 ≤ height) (seed : String) :
    (carved width height seed).Covered width height := by
  have horigin : (blank width height).get? Carving.origin = some ⟨1, 1, true, false⟩ := by
    have hx : (1 : Int) < width := by omega
    have hy : (1 : Int) < height := by omega
    rw [blank, Grid.get?_ofFn, if_pos ⟨⟨by decide, hx⟩, by decide, hy⟩]
    rfl
  obtain ⟨hgrown, hclosed⟩ := Carving.grown_carved horigin seed
  exact ⟨hgrown, hclosed⟩

/-- In a grid without the cell `(1, 1)` nothing is carved. -/
theorem carved_of_lt (h : width < 2 ∨ height < 2) (seed : String) :
    carved width height seed = blank width height := by
  refine Carving.carved_of_get?_eq_none (Grid.get?_eq_none_iff.2 ?_) seed
  show ¬(((0 : Int) ≤ 1 ∧ (1 : Int) < width) ∧ ((0 : Int) ≤ 1 ∧ (1 : Int) < height))
  omega

namespace Covered

/-- Carving came to every odd cell, cell by cell from `(1, 1)`. -/
theorem isVisited_of_isOdd (h : m.Covered width height) (hodd : p.IsOdd)
    (hc : ∃ c, m.get? p = some c) : m.isVisited p := by
  induction hn : (p.x + p.y).toNat using Nat.strongRecOn generalizing p with
  | ind n ih =>
    by_cases hp : p = Carving.origin
    · rw [hp]
      exact h.isVisited_origin
    · have hin := Grid.exists_get?_iff.1 hc
      obtain ⟨q, d, hqodd, rfl, hqx, hqy, hlt⟩ := hodd.exists_before hin.1.1 hin.2.1 hp
      have hqc : ∃ c, m.get? q = some c := Grid.exists_get?_iff.2 (by omega)
      have hq : m.isVisited q := ih (q.x + q.y).toNat (by omega) hqodd hqc rfl
      obtain ⟨c, hc⟩ := hc
      exact (isUnvisited_or_isVisited hc).resolve_left (h.closed q d hq)

/-- **Carving entered exactly the cells with odd coordinates.** -/
theorem isVisited_iff (h : m.Covered width height) :
    m.isVisited p ↔ p.IsOdd ∧ ∃ c, m.get? p = some c :=
  ⟨fun hp => ⟨h.isLattice.isOdd p hp, exists_get?_of_isVisited hp⟩,
    fun hp => h.isVisited_of_isOdd hp.1 hp.2⟩

/-- A covered maze fits, since its sides are those of the grid. -/
theorem fits (h : m.Covered width height) (hw : width ≤ 2147483647) (hh : height ≤ 2147483647) :
    m.Fits :=
  ⟨h.width_eq ▸ hw, h.height_eq ▸ hh⟩

/-- The entered cells are half the columns times half the rows. -/
theorem visited_eq (h : m.Covered width height) (hf : m.Fits) :
    m.visited = width / 2 * (height / 2) := by
  rw [← h.width_eq, ← h.height_eq]
  refine Grid.count_odd fun x y hx hy => ?_
  obtain ⟨p, hpx, hpy, hp⟩ := hf.exists_position ⟨x, hx⟩ ⟨y, hy⟩
  have hv : m.rows[y][x].visited = m.isVisited p := by
    rw [isVisited, hp]
    rfl
  have hodd : p.IsOdd ↔ x % 2 = 1 ∧ y % 2 = 1 := by
    rw [Position.IsOdd, hpx, hpy]
    simp only
    omega
  rw [hv, Bool.eq_iff_iff, h.isVisited_iff, decide_eq_true_iff, hodd]
  exact and_iff_left ⟨_, hp⟩

/-- **The open cells are two for each entered cell, but for the first one.** -/
theorem length_openCells (h : m.Covered width height) (hf : m.Fits) :
    m.openCells.length + 1 = 2 * (width / 2 * (height / 2)) := by
  rw [h.tally, h.visited_eq hf]

end Covered

end Maze

end Labyrinth
