/-
# Walks

A walk goes from cell to cell by single moves, and every cell of it is open.
Moves are exact here: a move that would leave the range of coordinates leads
nowhere, while `Position.move` stays where it is.  On open cells the two agree
(`Position.Leads.move_eq`, `Position.leads_move`).

A walk can be turned round (`Maze.Walk.back`), and a walk that comes through a
cell twice has a shorter one beside it (`Maze.Walk.exists_shorter`).
-/

import Labyrinth.Maze

namespace Labyrinth

/-! ## Moves -/

namespace Direction

/-- The direction that leads back. -/
def opposite : Direction → Direction
  | up => down
  | down => up
  | left => right
  | right => left

/-- The opposite of the opposite is the direction itself. -/
@[simp]
theorem opposite_opposite (d : Direction) : d.opposite.opposite = d := by
  cases d <;> rfl

/-- The opposite direction leads back horizontally. -/
theorem dx_opposite (d : Direction) : d.opposite.dx = -d.dx := by
  cases d <;> rfl

/-- It leads back vertically, too. -/
theorem dy_opposite (d : Direction) : d.opposite.dy = -d.dy := by
  cases d <;> rfl

/-- A displacement is one cell along one axis. -/
theorem displacement (d : Direction) :
    (d.dx = 0 ∧ (d.dy = 1 ∨ d.dy = -1)) ∨ (d.dy = 0 ∧ (d.dx = 1 ∨ d.dx = -1)) := by
  cases d <;> decide

/-- A direction is known by where it leads. -/
theorem eq_of_displacement {d e : Direction} (hx : d.dx = e.dx) (hy : d.dy = e.dy) : d = e := by
  cases d <;> cases e <;> first | rfl | exact absurd hx (by decide) | exact absurd hy (by decide)

end Direction

namespace Position

/-- One move in direction `d` leads from `p` exactly to `q`. -/
def Leads (p : Position) (d : Direction) (q : Position) : Prop :=
  q.x = p.x + d.dx ∧ q.y = p.y + d.dy

variable {p q r : Position} {d e : Direction}

/-- A move shifts the column, within the range. -/
theorem x_move (p : Position) (d : Direction) : (p.move d).x = clamp (p.x + d.dx) := by
  cases d <;> rfl

/-- A move shifts the row, within the range. -/
theorem y_move (p : Position) (d : Direction) : (p.move d).y = clamp (p.y + d.dy) := by
  cases d <;> rfl

/-- Where a direction leads, the move goes. -/
theorem Leads.move_eq (h : p.Leads d q) : p.move d = q := by
  rw [Position.ext_iff, x_move, y_move, ← h.1, ← h.2]
  exact ⟨clamp_eq_self q.isCoordinate_x, clamp_eq_self q.isCoordinate_y⟩

/-- A move that goes anywhere at all is exact. -/
theorem leads_move (h : p.move d ≠ p) : p.Leads d (p.move d) := by
  have hx := p.isCoordinate_x
  have hy := p.isCoordinate_y
  have hd := d.displacement
  rw [Ne, Position.ext_iff, x_move, y_move] at h
  rw [Leads, x_move, y_move]
  unfold clamp at *
  omega

/-- No direction leads to where it starts. -/
theorem Leads.ne (h : p.Leads d q) : q ≠ p := by
  rintro rfl
  have hd := d.displacement
  obtain ⟨hx, hy⟩ := h
  omega

/-- The opposite direction leads back. -/
theorem Leads.back (h : p.Leads d q) : q.Leads d.opposite p := by
  obtain ⟨hx, hy⟩ := h
  rw [Leads, Direction.dx_opposite, Direction.dy_opposite]
  omega

/-- Only one direction leads from a position to another one. -/
theorem Leads.direction_eq (hd : p.Leads d q) (he : p.Leads e q) : d = e :=
  Direction.eq_of_displacement (by have := hd.1; have := he.1; omega)
    (by have := hd.2; have := he.2; omega)

/-- The cells that moves lead through, the first one included. -/
def path (p : Position) : List Direction → List Position
  | [] => [p]
  | d :: ds => p :: (p.move d).path ds

/-- A path has the position that it starts at. -/
theorem mem_path_self (p : Position) (ds : List Direction) : p ∈ p.path ds := by
  cases ds <;> exact List.mem_cons_self

end Position

/-- The moves of a walk, turned round. -/
def turned (ds : List Direction) : List Direction := (ds.map Direction.opposite).reverse

/-- The first move is turned last. -/
theorem turned_cons (d : Direction) (ds : List Direction) :
    turned (d :: ds) = turned ds ++ [d.opposite] := by
  simp [turned]

/-- Turning round twice gives the moves again. -/
@[simp]
theorem turned_turned (ds : List Direction) : turned (turned ds) = ds := by
  simp [turned, Function.comp_def]

/-! ## Walks through open cells -/

namespace Maze

/-- The moves lead from one cell to another, through open cells only. -/
inductive Walk (m : Maze) : Position → List Direction → Position → Prop
  | stay {p : Position} : m.isOpen p → Walk m p [] p
  | go {p q r : Position} {d : Direction} {ds : List Direction} :
      m.isOpen p → p.Leads d q → Walk m q ds r → Walk m p (d :: ds) r

namespace Walk

variable {m : Maze} {a b c : Position} {d : Direction} {ds es : List Direction}

/-- A walk starts on an open cell. -/
theorem isOpen_first (h : m.Walk a ds b) : m.isOpen a := by
  cases h <;> assumption

/-- It ends on an open cell. -/
theorem isOpen_last (h : m.Walk a ds b) : m.isOpen b := by
  induction h with
  | stay ha => exact ha
  | go _ _ _ ih => exact ih

/-- Every cell of a walk is open. -/
theorem isOpen_of_mem_path (h : m.Walk a ds b) {p : Position} (hp : p ∈ a.path ds) :
    m.isOpen p := by
  induction h with
  | stay ha =>
    rw [Position.path, List.mem_singleton] at hp
    exact hp ▸ ha
  | go ha hl _ ih =>
    rw [Position.path, List.mem_cons, hl.move_eq] at hp
    rcases hp with rfl | hp
    · exact ha
    · exact ih hp

/-- The end of a walk lies on its path. -/
theorem last_mem_path (h : m.Walk a ds b) : b ∈ a.path ds := by
  induction h with
  | stay _ => exact Position.mem_path_self ..
  | go _ hl _ ih =>
    rw [Position.path, hl.move_eq]
    exact List.mem_cons_of_mem _ ih

/-- It is the last position of the path. -/
theorem getLast?_path (h : m.Walk a ds b) : (a.path ds).getLast? = some b := by
  induction h with
  | stay _ => rfl
  | go _ hl h ih =>
    rw [Position.path, hl.move_eq, List.getLast?_cons, ih, Option.getD_some]

/-- Two cells that follow each other on a walk are one move apart. -/
theorem exists_leads_of_path (h : m.Walk a ds b) {i : Nat} {p q : Position}
    (hp : (a.path ds)[i]? = some p) (hq : (a.path ds)[i + 1]? = some q) :
    ∃ d, p.Leads d q := by
  induction h generalizing i with
  | stay _ => cases hq
  | @go a c b d ds _ hl h ih =>
    rw [Position.path, hl.move_eq] at hp hq
    rw [List.getElem?_cons_succ] at hq
    cases i with
    | zero =>
      have hc : (c.path ds)[0]? = some c := by cases ds <;> rfl
      rw [hc] at hq
      obtain rfl := Option.some.inj hp
      obtain rfl := Option.some.inj hq
      exact ⟨d, hl⟩
    | succ i => exact ih hp hq

/-- A walk goes on with another one from where it ends. -/
theorem append (h : m.Walk a ds b) (h' : m.Walk b es c) : m.Walk a (ds ++ es) c := by
  induction h with
  | stay _ => exact h'
  | go ha hl _ ih => exact go ha hl (ih h')

/-- A walk goes on by a move to an open cell. -/
theorem snoc (h : m.Walk a ds b) (hl : b.Leads d c) (hc : m.isOpen c) :
    m.Walk a (ds ++ [d]) c :=
  h.append (go h.isOpen_last hl (stay hc))

/-- The last move of a walk taken off. -/
theorem of_snoc (h : m.Walk a (ds ++ [d]) c) :
    ∃ b, m.Walk a ds b ∧ b.Leads d c ∧ m.isOpen c := by
  induction ds generalizing a with
  | nil =>
    cases h with
    | go ha hl h =>
      cases h with
      | stay hc => exact ⟨a, stay ha, hl, hc⟩
  | cons e ds ih =>
    cases h with
    | go ha hl h =>
      obtain ⟨b, hb, hbc⟩ := ih h
      exact ⟨b, go ha hl hb, hbc⟩

/-- A walk stays a walk where more cells are open. -/
theorem mono {m' : Maze} (hm : ∀ p, m.isOpen p → m'.isOpen p) (h : m.Walk a ds b) :
    m'.Walk a ds b := by
  induction h with
  | stay ha => exact stay (hm _ ha)
  | go ha hl _ ih => exact go (hm _ ha) hl ih

/-- **A walk can be turned round.** -/
theorem back (h : m.Walk a ds b) : m.Walk b (turned ds) a := by
  induction h with
  | stay ha => exact stay ha
  | go ha hl _ ih =>
    rw [turned_cons]
    exact ih.snoc hl.back ha

/-- One move more adds the position that it leads to. -/
theorem path_snoc (h : m.Walk a ds b) (hl : b.Leads d c) :
    a.path (ds ++ [d]) = a.path ds ++ [c] := by
  induction h with
  | stay _ =>
    rw [List.nil_append, Position.path, Position.path, hl.move_eq, Position.path]
    rfl
  | go _ hl' _ ih =>
    rw [List.cons_append, Position.path, hl'.move_eq, ih hl, Position.path, hl'.move_eq,
      List.cons_append]

/-- Turned round, a walk comes through the same cells in the opposite order. -/
theorem path_back (h : m.Walk a ds b) : b.path (turned ds) = (a.path ds).reverse := by
  induction h with
  | stay _ => rfl
  | go _ hl h ih =>
    rw [turned_cons, h.back.path_snoc hl.back, ih, Position.path, hl.move_eq, List.reverse_cons]

/-- From every cell of a walk the rest of the walk leads on. -/
theorem exists_rest (h : m.Walk a ds b) {p : Position} (hp : p ∈ a.path ds) :
    ∃ es, m.Walk p es b ∧ es.length ≤ ds.length := by
  induction h with
  | stay hq =>
    rw [Position.path, List.mem_singleton] at hp
    subst hp
    exact ⟨[], stay hq, Nat.le_refl _⟩
  | go hq hl h ih =>
    rw [Position.path, List.mem_cons, hl.move_eq] at hp
    rcases hp with rfl | hp
    · exact ⟨_, go hq hl h, Nat.le_refl _⟩
    · obtain ⟨es, hes, hle⟩ := ih hp
      exact ⟨es, hes, Nat.le_succ_of_le hle⟩

/-- **A walk that comes through a cell twice is not a shortest one.** -/
theorem exists_shorter (h : m.Walk a ds b) (hd : ¬(a.path ds).Nodup) :
    ∃ es, m.Walk a es b ∧ es.length < ds.length := by
  induction h with
  | stay _ => exact absurd (List.nodup_cons.2 ⟨List.not_mem_nil, List.nodup_nil⟩) hd
  | go hp hl h ih =>
    rw [Position.path, hl.move_eq, List.nodup_cons, Classical.not_and_iff_not_or_not,
      Classical.not_not] at hd
    rcases hd with hmem | hd
    · obtain ⟨es, hes, hle⟩ := h.exists_rest hmem
      exact ⟨es, hes, Nat.lt_succ_of_le hle⟩
    · obtain ⟨es, hes, hlt⟩ := ih hd
      exact ⟨_ :: es, go hp hl hes, Nat.succ_lt_succ hlt⟩

end Walk

end Maze

end Labyrinth
