/-
# The open cells of a maze

A maze is read cell by cell at positions, as the list of its open cells, and
from its far end.  On a maze whose cells know where they are (`Maze.IsLaidOut`)
and whose cells all have positions (`Maze.Fits`), the three agree: the list
holds exactly the open positions (`Maze.mem_openCells_iff`), row by row and each
of them once (`Maze.pairwise_openCells`), and the last open cell is one of them.
-/

import Labyrinth.Maze

namespace Labyrinth

namespace Grid

variable {α : Type} {g : Grid α} {p : Position}

/-- There is something to read exactly inside the rectangle. -/
theorem exists_get?_iff :
    (∃ a, g.get? p = some a) ↔ (0 ≤ p.x ∧ p.x < g.width) ∧ (0 ≤ p.y ∧ p.y < g.height) := by
  rw [← Option.isSome_iff_exists, ← Option.ne_none_iff_isSome, Ne, get?_eq_none_iff,
    Classical.not_not]

/-- A grid of a function has its values in its rows. -/
theorem rows_ofFn {width height : Nat} (f : Nat → Nat → α)
    (x : Fin (ofFn width height f).width) (y : Fin (ofFn width height f).height) :
    (ofFn width height f).rows[y][x] = f x y := by
  have hx : x.val < width := x.isLt
  have hy : y.val < height := y.isLt
  show (Vector.ofFn fun y : Fin height => Vector.ofFn fun x : Fin width => f x y)[y.val][x.val] = _
  rw [Vector.getElem_ofFn, Vector.getElem_ofFn]

/-- All its items are values of the function. -/
theorem exists_of_mem_toList_ofFn {width height : Nat} {f : Nat → Nat → α} {a : α}
    (h : a ∈ (ofFn width height f).toList) : ∃ x y, a = f x y := by
  obtain ⟨x, y, rfl⟩ := mem_toList_iff.1 h
  exact ⟨x, y, rows_ofFn f x y⟩

/-- **A grid of a function is read as the function**, and outside as nothing. -/
theorem get?_ofFn (width height : Nat) (f : Nat → Nat → α) (p : Position) :
    (ofFn width height f).get? p =
      if (0 ≤ p.x ∧ p.x < width) ∧ (0 ≤ p.y ∧ p.y < height) then some (f p.x.toNat p.y.toNat)
      else none := by
  split
  · rename_i h
    have hx : p.x.toNat < width := by omega
    have hy : p.y.toNat < height := by omega
    refine get?_eq_some_iff.2 ⟨⟨p.x.toNat, hx⟩, ⟨p.y.toNat, hy⟩, ?_, ?_, ?_⟩
    · exact (Int.toNat_of_nonneg h.1.1).symm
    · exact (Int.toNat_of_nonneg h.2.1).symm
    · exact rows_ofFn f ⟨p.x.toNat, hx⟩ ⟨p.y.toNat, hy⟩
  · rename_i h
    exact get?_eq_none_iff.2 h

end Grid

namespace Maze

variable {m : Maze} {p q : Position}

/-! ## Single cells -/

/-- Carving went through the cell at a position. -/
def isVisited (m : Maze) (p : Position) : Bool := (m.get? p).any (·.visited)

/-- An open position has a cell that is no wall. -/
theorem isOpen_iff : m.isOpen p ↔ ∃ c, m.get? p = some c ∧ c.isWall = false := by
  rw [isOpen, Option.any_eq_true]
  simp only [Bool.not_eq_true']

/-- Whatever cell is read at an open position is no wall. -/
theorem isWall_eq_false_of_isOpen (h : m.isOpen p) {c : Cell} (hc : m.get? p = some c) :
    c.isWall = false := by
  simpa [isOpen, hc] using h

/-- A visited position has a cell that is marked. -/
theorem isVisited_iff : m.isVisited p ↔ ∃ c, m.get? p = some c ∧ c.visited = true := by
  rw [isVisited, Option.any_eq_true]

/-- An unvisited position has a cell that is not marked. -/
theorem isUnvisited_iff : m.isUnvisited p ↔ ∃ c, m.get? p = some c ∧ c.visited = false := by
  rw [isUnvisited, Option.any_eq_true]
  simp only [Bool.not_eq_true']

/-- A visited position lies inside the maze. -/
theorem exists_get?_of_isVisited (h : m.isVisited p) : ∃ c, m.get? p = some c := by
  obtain ⟨c, hc, -⟩ := isVisited_iff.1 h
  exact ⟨c, hc⟩

/-- An unvisited position lies inside the maze, too. -/
theorem exists_get?_of_isUnvisited (h : m.isUnvisited p) : ∃ c, m.get? p = some c := by
  obtain ⟨c, hc, -⟩ := isUnvisited_iff.1 h
  exact ⟨c, hc⟩

/-- Opening a cell moves no border. -/
theorem exists_get?_carve (m : Maze) (p q : Position) :
    (∃ c, (m.carve p).get? q = some c) ↔ ∃ c, m.get? q = some c := by
  rw [Grid.exists_get?_iff, Grid.exists_get?_iff, carve, Grid.width_modify, Grid.height_modify]

/-- Every cell is the one or the other. -/
theorem isUnvisited_or_isVisited {c : Cell} (h : m.get? p = some c) :
    m.isUnvisited p ∨ m.isVisited p := by
  rw [isUnvisited_iff, isVisited_iff]
  cases hv : c.visited
  · exact Or.inl ⟨c, h, hv⟩
  · exact Or.inr ⟨c, h, hv⟩

/-- No cell is both. -/
theorem not_isUnvisited_of_isVisited (h : m.isVisited p) : ¬m.isUnvisited p := by
  rw [isUnvisited_iff]
  obtain ⟨c, hc, hv⟩ := isVisited_iff.1 h
  rintro ⟨c', hc', hv'⟩
  rw [hc] at hc'
  obtain rfl := Option.some.inj hc'
  rw [hv] at hv'
  cases hv'

/-- Opening a cell inside makes its position open, and no other one. -/
theorem isOpen_carve {c : Cell} (h : m.get? p = some c) :
    (m.carve p).isOpen q ↔ q = p ∨ m.isOpen q := by
  rw [isOpen, isOpen, get?_carve, h]
  by_cases hq : q = p <;> simp [hq, Cell.opened]

/-- A visit opens the cell as well. -/
theorem isOpen_visit {c : Cell} (h : m.get? p = some c) :
    (m.visit p).isOpen q ↔ q = p ∨ m.isOpen q := by
  rw [isOpen, isOpen, visit, Grid.get?_modify, h]
  by_cases hq : q = p <;> simp [hq, Cell.entered]

/-- Opening a cell marks nothing. -/
theorem isVisited_carve (m : Maze) (p q : Position) :
    (m.carve p).isVisited q = m.isVisited q := by
  rw [isVisited, isVisited, get?_carve]
  by_cases hq : q = p
  · subst hq
    rw [if_pos rfl]
    cases m.get? q <;> rfl
  · rw [if_neg hq]

/-- A visit marks the cell, and no other one. -/
theorem isVisited_visit {c : Cell} (h : m.get? p = some c) :
    (m.visit p).isVisited q ↔ q = p ∨ m.isVisited q := by
  rw [isVisited, isVisited, visit, Grid.get?_modify, h]
  by_cases hq : q = p <;> simp [hq, Cell.entered]

/-- What is unvisited after a visit was unvisited before, somewhere else. -/
theorem isUnvisited_visit (m : Maze) (p q : Position) :
    (m.visit p).isUnvisited q ↔ q ≠ p ∧ m.isUnvisited q := by
  rw [isUnvisited, isUnvisited, visit, Grid.get?_modify]
  by_cases hq : q = p
  · subst hq
    rw [if_pos rfl]
    cases m.get? q <;> simp [Cell.entered]
  · simp [hq]

/-- Nothing is open in the maze of walls. -/
theorem isOpen_blank (width height : Nat) (p : Position) : ¬(blank width height).isOpen p := by
  rw [isOpen, blank, Grid.get?_ofFn]
  split <;> simp

/-- Nothing is visited there. -/
theorem isVisited_blank (width height : Nat) (p : Position) :
    ¬(blank width height).isVisited p := by
  rw [isVisited, blank, Grid.get?_ofFn]
  split <;> simp

/-! ## Cells that know where they are -/

/-- Every cell knows its column and its row. -/
def IsLaidOut (m : Maze) : Prop := ∀ p c, m.get? p = some c → p.x = c.x ∧ p.y = c.y

/-- Every cell has a position. -/
def Fits (m : Maze) : Prop := m.width ≤ 2147483647 ∧ m.height ≤ 2147483647

/-- The maze of walls is laid out. -/
theorem isLaidOut_blank (width height : Nat) : (blank width height).IsLaidOut := by
  intro p c h
  rw [blank, Grid.get?_ofFn] at h
  split at h
  · obtain rfl := Option.some.inj h
    simp only
    omega
  · cases h

/-- A change that keeps the coordinates of cells keeps the layout. -/
theorem IsLaidOut.modify (h : m.IsLaidOut) {f : Cell → Cell}
    (hf : ∀ c, (f c).x = c.x ∧ (f c).y = c.y) (p : Position) :
    Maze.IsLaidOut (m.modify p f) := by
  intro q c hq
  rw [Grid.get?_modify] at hq
  split at hq
  · rename_i he
    obtain ⟨b, hb, rfl⟩ := Option.map_eq_some_iff.1 hq
    rw [(hf b).1, (hf b).2, he]
    exact h p b hb
  · exact h q c hq

/-- Opening a cell keeps the layout. -/
theorem IsLaidOut.carve (h : m.IsLaidOut) (p : Position) : (m.carve p).IsLaidOut :=
  h.modify (f := Cell.opened) (fun _ => ⟨rfl, rfl⟩) p

/-- So does a visit. -/
theorem IsLaidOut.visit (h : m.IsLaidOut) (p : Position) : (m.visit p).IsLaidOut :=
  h.modify (f := Cell.entered) (fun _ => ⟨rfl, rfl⟩) p

/-- In a maze that is laid out the cell read at a position has this position. -/
theorem IsLaidOut.position_eq (h : m.IsLaidOut) {c : Cell} (hc : m.get? p = some c) :
    c.position = p := by
  obtain ⟨hx, hy⟩ := h p c hc
  rw [Position.ext_iff, Cell.position, Position.nearest, ← hx, ← hy]
  exact ⟨Position.clamp_eq_self p.isCoordinate_x, Position.clamp_eq_self p.isCoordinate_y⟩

/-- In a maze that fits every place of its rows has a position. -/
theorem Fits.exists_position (h : m.Fits) (x : Fin m.width) (y : Fin m.height) :
    ∃ p : Position, p.x = x.val ∧ p.y = y.val ∧ m.get? p = some m.rows[y][x] := by
  have hx := x.isLt
  have hy := y.isLt
  obtain ⟨hw, hh⟩ := h
  exact ⟨⟨x.val, y.val, by omega, by omega⟩, rfl, rfl,
    Grid.get?_eq_some_iff.2 ⟨x, y, rfl, rfl, rfl⟩⟩

/-- Two mazes are the same if they are read alike at every position. -/
theorem Fits.ext (h : m.Fits) {m' : Maze} (hwidth : m.width = m'.width)
    (hheight : m.height = m'.height) (hget : ∀ p, m.get? p = m'.get? p) : m = m' := by
  obtain ⟨width, height, rows⟩ := m
  obtain ⟨width', height', rows'⟩ := m'
  obtain rfl : width = width' := hwidth
  obtain rfl : height = height' := hheight
  refine congrArg (Grid.mk width height) (Vector.ext fun y hy => Vector.ext fun x hx => ?_)
  obtain ⟨p, hpx, hpy, hp⟩ := h.exists_position ⟨x, hx⟩ ⟨y, hy⟩
  obtain ⟨u, v, hu, hv, hrow⟩ := Grid.get?_eq_some_iff.1 ((hget p).symm.trans hp)
  obtain rfl : u = ⟨x, hx⟩ := Fin.ext (by omega)
  obtain rfl : v = ⟨y, hy⟩ := Fin.ext (by omega)
  exact hrow.symm

/-- In a maze that fits its sides every cell is read somewhere. -/
theorem Fits.exists_get? (h : m.Fits) {c : Cell} (hc : c ∈ m.toList) : ∃ p, m.get? p = some c := by
  obtain ⟨x, y, rfl⟩ := Grid.mem_toList_iff.1 hc
  obtain ⟨p, -, -, hp⟩ := h.exists_position x y
  exact ⟨p, hp⟩

/-- What is read at a position is one of the cells. -/
theorem mem_toList_of_get? {c : Cell} (h : m.get? p = some c) : c ∈ m.toList := by
  obtain ⟨x, y, -, -, hc⟩ := Grid.get?_eq_some_iff.1 h
  exact Grid.mem_toList_iff.2 ⟨x, y, hc⟩

/-- **The list of the open cells holds exactly the open positions.** -/
theorem mem_openCells_iff (hl : m.IsLaidOut) (hf : m.Fits) : p ∈ m.openCells ↔ m.isOpen p := by
  rw [isOpen_iff, openCells]
  simp only [List.mem_map, List.mem_filter, Bool.not_eq_true']
  constructor
  · rintro ⟨c, ⟨hc, ho⟩, rfl⟩
    obtain ⟨q, hq⟩ := hf.exists_get? hc
    exact ⟨c, by rwa [hl.position_eq hq], ho⟩
  · rintro ⟨c, hc, ho⟩
    exact ⟨c, ⟨mem_toList_of_get? hc, ho⟩, hl.position_eq hc⟩

/-- The position of a cell is its place in the grid. -/
theorem Fits.position_rows (hf : m.Fits) (hl : m.IsLaidOut) (x : Fin m.width)
    (y : Fin m.height) :
    m.rows[y][x].position.x = x.val ∧ m.rows[y][x].position.y = y.val := by
  obtain ⟨p, hx, hy, hp⟩ := hf.exists_position x y
  rw [hl.position_eq hp]
  exact ⟨hx, hy⟩

/-- The cells are listed row by row, each row from left to right. -/
theorem pairwise_toList (hl : m.IsLaidOut) (hf : m.Fits) :
    m.toList.Pairwise fun c d => c.position.y < d.position.y ∨
      c.position.y = d.position.y ∧ c.position.x < d.position.x := by
  rw [Grid.toList, List.pairwise_flatMap]
  constructor
  · intro row hrow
    obtain ⟨y, hy, rfl⟩ := Vector.mem_iff_getElem.1 (Vector.mem_toList_iff.1 hrow)
    rw [List.pairwise_iff_getElem]
    intro i j hi hj hij
    simp only [Vector.length_toList] at hi hj
    have hci := hf.position_rows hl ⟨i, hi⟩ ⟨y, hy⟩
    have hcj := hf.position_rows hl ⟨j, hj⟩ ⟨y, hy⟩
    simp only [Fin.getElem_fin, Vector.getElem_toList] at hci hcj ⊢
    omega
  · rw [List.pairwise_iff_getElem]
    intro i j hi hj hij c hc d hd
    simp only [Vector.length_toList] at hi hj
    rw [Vector.getElem_toList, Vector.mem_toList_iff, Vector.mem_iff_getElem] at hc hd
    obtain ⟨x, hx, rfl⟩ := hc
    obtain ⟨u, hu, rfl⟩ := hd
    have hci := hf.position_rows hl ⟨x, hx⟩ ⟨i, hi⟩
    have hcj := hf.position_rows hl ⟨u, hu⟩ ⟨j, hj⟩
    simp only [Fin.getElem_fin] at hci hcj
    omega

/-- No two cells have the same position. -/
theorem nodup_positions (hl : m.IsLaidOut) (hf : m.Fits) :
    (m.toList.map Cell.position).Nodup := by
  refine List.pairwise_map.2 ((pairwise_toList hl hf).imp fun {c d} h he => ?_)
  rw [he] at h
  omega

/-- Exactly one cell is at an open position. -/
theorem countP_position_of_isOpen (hl : m.IsLaidOut) (hf : m.Fits) (h : m.isOpen p) :
    m.toList.countP (fun c => c.position = p) = 1 := by
  obtain ⟨c, hc, -⟩ := isOpen_iff.1 h
  have hmem : p ∈ m.toList.map Cell.position :=
    List.mem_map.2 ⟨c, mem_toList_of_get? hc, hl.position_eq hc⟩
  have hcount : (m.toList.map Cell.position).count p = 1 := by
    rw [(nodup_positions hl hf).count, if_pos hmem]
  rw [← hcount, List.count, List.countP_map]
  rfl

/-- **The open cells are listed row by row, each row from left to right.** -/
theorem pairwise_openCells (hl : m.IsLaidOut) (hf : m.Fits) :
    m.openCells.Pairwise fun p q => p.y < q.y ∨ p.y = q.y ∧ p.x < q.x :=
  List.pairwise_map.2 ((pairwise_toList hl hf).sublist List.filter_sublist)

/-- No position is listed twice among the open cells. -/
theorem nodup_openCells (hl : m.IsLaidOut) (hf : m.Fits) : m.openCells.Nodup := by
  refine (pairwise_openCells hl hf).imp fun {p q} h he => ?_
  subst he
  omega

/-- The list has a position for each cell that is no wall. -/
theorem length_openCells (m : Maze) : m.openCells.length = m.count (!·.isWall) := by
  rw [openCells, List.length_map, Grid.count, List.countP_eq_length_filter]

/-- **The last open cell is the last one of the list.** -/
theorem lastOpen?_eq_getLast? (m : Maze) : m.lastOpen? = m.openCells.getLast? := by
  rw [lastOpen?, openCells, List.getLast?_map, List.getLast?_eq_head?_reverse,
    ← List.filter_reverse, List.head?_filter]

/-- The last open cell is open. -/
theorem isOpen_of_lastOpen? (hl : m.IsLaidOut) (hf : m.Fits) (h : m.lastOpen? = some p) :
    m.isOpen p := by
  rw [lastOpen?_eq_getLast?] at h
  exact (mem_openCells_iff hl hf).1 (List.mem_of_getLast? h)

/-- Every open cell lies above the last one, or left of it in the same row. -/
theorem le_of_lastOpen? (hl : m.IsLaidOut) (hf : m.Fits) (h : m.lastOpen? = some q)
    (hp : m.isOpen p) : p = q ∨ p.y < q.y ∨ p.y = q.y ∧ p.x < q.x := by
  rw [lastOpen?_eq_getLast?] at h
  obtain ⟨before, hcells⟩ := List.getLast?_eq_some_iff.1 h
  have hsorted := pairwise_openCells hl hf
  have hmem := (mem_openCells_iff hl hf).2 hp
  rw [hcells] at hsorted hmem
  rcases List.mem_append.1 hmem with hmem | hmem
  · exact Or.inr ((List.pairwise_append.1 hsorted).2.2 p hmem q List.mem_cons_self)
  · exact Or.inl (List.mem_singleton.1 hmem)

/-- If a cell is open, there is a last one. -/
theorem exists_lastOpen? (hl : m.IsLaidOut) (hf : m.Fits) (h : m.isOpen p) :
    ∃ q, m.lastOpen? = some q := by
  rw [lastOpen?_eq_getLast?, ← Option.isSome_iff_exists, List.getLast?_isSome]
  exact List.ne_nil_of_mem ((mem_openCells_iff hl hf).2 h)

/-- Positions differ in a coordinate as soon as one differs from the first. -/
theorem exists_ne_iff (f : Position → Int) (p : Position) (ps : List Position) :
    (∃ a b, a ∈ p :: ps ∧ b ∈ p :: ps ∧ f a ≠ f b) ↔ ps.all (fun q => f q = f p) = false := by
  rw [List.all_eq_false]
  constructor
  · rintro ⟨a, b, ha, hb, hne⟩
    by_cases hap : f a = f p
    · have hbp : f b ≠ f p := fun h => hne (hap.trans h.symm)
      have hb : b ∈ ps := (List.mem_cons.1 hb).resolve_left fun h => hbp (h ▸ rfl)
      exact ⟨b, hb, by simpa using hbp⟩
    · have ha : a ∈ ps := (List.mem_cons.1 ha).resolve_left fun h => hap (h ▸ rfl)
      exact ⟨a, ha, by simpa using hap⟩
  · rintro ⟨q, hq, hne⟩
    exact ⟨q, p, List.mem_cons_of_mem _ hq, List.mem_cons_self, by simpa using hne⟩

/-- **A maze is degenerate unless its open cells reach over two columns and over
two rows.** -/
theorem isDegenerate_eq_false_iff (hl : m.IsLaidOut) (hf : m.Fits) :
    m.isDegenerate = false ↔
      (∃ a b, m.isOpen a ∧ m.isOpen b ∧ a.x ≠ b.x) ∧
      (∃ a b, m.isOpen a ∧ m.isOpen b ∧ a.y ≠ b.y) := by
  simp only [← mem_openCells_iff hl hf]
  rw [isDegenerate]
  split
  · rename_i he
    simp [he]
  · rename_i p he
    simp [he]
  · rename_i p ps _ he
    rw [he, Bool.or_eq_false_iff, exists_ne_iff (·.x), exists_ne_iff (·.y)]
    exact And.comm

end Maze

end Labyrinth
