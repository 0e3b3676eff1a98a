/-
# How a carving grows

A carving grows its maze dig by dig.  What every dig keeps of the maze is
`Maze.Grown`: it stays a perfect maze on the lattice, with two open cells, but
for the first one, to each cell entered.  What every step keeps of the stack is
`Carving.Sound`: only entered cells are in it, and where an entered cell still
has an unvisited cell two moves away, a frame of it has that direction pending.
At the end no frame is left, so no such cell is left either
(`Carving.grown_carved`).
-/

import Labyrinth.Proofs.Carving.Lattice
import Labyrinth.Proofs.Random.Shuffle

namespace Labyrinth

namespace Maze

variable {m : Maze} {p : Position} {d : Direction} {width height : Nat}

/-! ## Counting cells -/

/-- The number of cells that carving went through. -/
def visited (m : Maze) : Nat := m.count (·.visited)

/-- A wall that is opened counts as one open cell more. -/
theorem length_openCells_modify {f : Cell → Cell} (hf : ∀ c, (f c).isWall = false)
    (hc : ∃ c, m.get? p = some c) (ho : ¬m.isOpen p) :
    (openCells (m.modify p f)).length = m.openCells.length + 1 := by
  obtain ⟨c, hc⟩ := hc
  have hw : c.isWall = true := by
    rw [← Bool.not_eq_false]
    exact fun hw => ho (isOpen_iff.2 ⟨c, hc, hw⟩)
  have hcount := Grid.count_modify hc f (!·.isWall)
  simp only [hf, hw, Bool.not_true, Bool.not_false, Bool.false_eq_true, if_true, if_false] at hcount
  rw [length_openCells, length_openCells]
  exact hcount

/-- A wall that is opened is one open cell more. -/
theorem length_openCells_carve (hc : ∃ c, m.get? p = some c) (ho : ¬m.isOpen p) :
    (m.carve p).openCells.length = m.openCells.length + 1 :=
  length_openCells_modify (f := Cell.opened) (fun _ => rfl) hc ho

/-- So is a wall that is visited. -/
theorem length_openCells_visit (hc : ∃ c, m.get? p = some c) (ho : ¬m.isOpen p) :
    (m.visit p).openCells.length = m.openCells.length + 1 :=
  length_openCells_modify (f := Cell.entered) (fun _ => rfl) hc ho

/-- A dig opens two cells. -/
theorem IsLattice.length_openCells_dig (h : m.IsLattice) (hp : m.isVisited p)
    (hu : m.isUnvisited (p.offset d 2)) :
    (m.dig p d).openCells.length = m.openCells.length + 2 := by
  obtain ⟨hw, ht⟩ := h.leads_offset hp hu
  have hct := exists_get?_of_isUnvisited hu
  have hcw := exists_get?_between (exists_get?_of_isVisited hp) hw ht hct
  have hbetween := length_openCells_carve hcw (h.leaf_between hp hw ht hu).not_isOpen
  have htarget := length_openCells_visit ((exists_get?_carve m (p.offset d 1) _).2 hct)
    (h.leaf_target hp hw ht hu).not_isOpen
  rw [Maze.dig, htarget, hbetween]

/-- Opening a cell is no visit. -/
theorem visited_carve (m : Maze) (p : Position) : (m.carve p).visited = m.visited := by
  rw [visited, visited, carve]
  cases h : m.get? p with
  | none => rw [Grid.modify_of_get?_eq_none h]
  | some c => exact Nat.add_right_cancel (Grid.count_modify h Cell.opened (·.visited))

/-- A visit to an unvisited cell is one visited cell more. -/
theorem visited_visit (h : m.isUnvisited p) : (m.visit p).visited = m.visited + 1 := by
  obtain ⟨c, hc, hv⟩ := isUnvisited_iff.1 h
  have hcount := Grid.count_modify hc Cell.entered (·.visited)
  simp only [hv, Cell.entered, Bool.false_eq_true, if_true, if_false] at hcount
  exact hcount

/-- A dig enters one cell. -/
theorem visited_dig (hu : m.isUnvisited (p.offset d 2)) : (m.dig p d).visited = m.visited + 1 := by
  rw [← isUnvisited_carve m (p.offset d 1)] at hu
  rw [dig, visited_visit hu, visited_carve]

/-- The blank maze has no cell with a property that no blank cell has. -/
theorem count_blank {P : Cell → Bool} (hP : ∀ x y, P ⟨x, y, true, false⟩ = false)
    (width height : Nat) : (blank width height).count P = 0 := by
  rw [Grid.count, List.countP_eq_zero]
  intro c hc
  obtain ⟨x, y, rfl⟩ := Grid.exists_of_mem_toList_ofFn hc
  rw [hP]
  exact Bool.false_ne_true

/-! ## What a dig keeps of the maze -/

/-- A maze as carving grows it from its first cell. -/
structure Grown (width height : Nat) (m : Maze) : Prop where
  width_eq : m.width = width
  height_eq : m.height = height
  isLaidOut : m.IsLaidOut
  isLattice : m.IsLattice
  isPerfect : m.IsPerfect
  isVisited_origin : m.isVisited Carving.origin
  tally : m.openCells.length + 1 = 2 * m.visited

namespace Grown

/-- **A dig keeps the maze in shape.** -/
theorem dig (h : m.Grown width height) (hp : m.isVisited p) (hu : m.isUnvisited (p.offset d 2)) :
    (m.dig p d).Grown width height := by
  have htally := h.tally
  refine ⟨?_, ?_, h.isLaidOut.dig p d, h.isLattice.dig hp hu, ?_, ?_, ?_⟩
  · rw [width_dig, h.width_eq]
  · rw [height_dig, h.height_eq]
  · exact h.isLattice.isPerfect_dig h.isPerfect hp hu
  · exact (isVisited_dig (exists_get?_of_isUnvisited hu)).2 (Or.inr h.isVisited_origin)
  · rw [h.isLattice.length_openCells_dig hp hu, visited_dig hu]
    omega

/-- A maze with one open cell, which is visited and odd, is on the lattice. -/
theorem isLattice_of_iff_eq {p : Position} (hodd : p.IsOdd) (ho : ∀ r, m.isOpen r ↔ r = p)
    (hv : ∀ r, m.isVisited r ↔ r = p) : m.IsLattice := by
  constructor
  · intro r hr
    rw [(hv r).1 hr]
    exact hodd
  · intro r hr
    exact (ho r).2 ((hv r).1 hr)
  · intro q hq
    exact Or.inl ((hv q).2 ((ho q).1 hq))

/-- The maze with its first cell. -/
theorem of_blank {c : Cell} (h : (blank width height).get? Carving.origin = some c) :
    ((blank width height).visit Carving.origin).Grown width height := by
  have hopen : ∀ r, ((blank width height).visit Carving.origin).isOpen r ↔
      r = Carving.origin :=
    fun r => (isOpen_visit h).trans (or_iff_left (isOpen_blank width height r))
  have hvisited : ∀ r, ((blank width height).visit Carving.origin).isVisited r ↔
      r = Carving.origin :=
    fun r => (isVisited_visit h).trans (or_iff_left (isVisited_blank width height r))
  refine ⟨Grid.width_modify .., Grid.height_modify .., (isLaidOut_blank width height).visit _,
    isLattice_of_iff_eq ⟨rfl, rfl⟩ hopen hvisited, isPerfect_of_isOpen_iff_eq hopen,
    (hvisited _).2 rfl, ?_⟩
  have hlength := length_openCells_visit ⟨c, h⟩ (isOpen_blank width height Carving.origin)
  have hcount := visited_visit
    ((isUnvisited_or_isVisited h).resolve_right (isVisited_blank width height Carving.origin))
  have hopened : (blank width height).openCells.length = 0 :=
    (length_openCells _).trans (count_blank (fun _ _ => rfl) width height)
  have hentered : (blank width height).visited = 0 := count_blank (fun _ _ => rfl) width height
  rw [hlength, hcount, hopened, hentered]

end Grown

end Maze

/-! ## What a step keeps of the stack -/

namespace Carving

variable {c : Carving} {width height : Nat}

/-- A carving between two steps.  An entered cell is tended: in each direction
there is no unvisited cell two moves away, or a frame of the cell is still going
to try that direction. -/
structure Sound (width height : Nat) (c : Carving) : Prop where
  grown : c.maze.Grown width height
  standing : ∀ f ∈ c.stack, c.maze.isVisited f.position
  tended : ∀ p d, c.maze.isVisited p → c.maze.isUnvisited (p.offset d 2) →
    ∃ f ∈ c.stack, f.position = p ∧ d ∈ f.pending

namespace Sound

variable {maze : Maze} {random : Lcg} {stack : List Frame} {p : Position} {d : Direction}
  {pending : List Direction}

/-- A cell with nothing left to try can be left. -/
theorem leave (h : Sound width height ⟨maze, random, ⟨p, []⟩ :: stack⟩) :
    Sound width height ⟨maze, random, stack⟩ := by
  refine ⟨h.grown, fun f hf => h.standing f (List.mem_cons_of_mem _ hf), fun q e hq hu => ?_⟩
  obtain ⟨f, hf, hfq, he⟩ := h.tended q e hq hu
  rcases List.mem_cons.1 hf with rfl | hf
  · exact absurd he List.not_mem_nil
  · exact ⟨f, hf, hfq, he⟩

/-- A direction with no unvisited cell two moves away can be dropped. -/
theorem skip (h : Sound width height ⟨maze, random, ⟨p, d :: pending⟩ :: stack⟩)
    (hu : ¬maze.isUnvisited (p.offset d 2)) :
    Sound width height ⟨maze, random, ⟨p, pending⟩ :: stack⟩ := by
  refine ⟨h.grown, fun f hf => ?_, fun q e hq hqu => ?_⟩
  · rcases List.mem_cons.1 hf with rfl | hf
    · exact h.standing ⟨p, d :: pending⟩ List.mem_cons_self
    · exact h.standing f (List.mem_cons_of_mem _ hf)
  · obtain ⟨f, hf, hfq, he⟩ := h.tended q e hq hqu
    rcases List.mem_cons.1 hf with rfl | hf
    · -- the frame of the direction that was dropped
      subst hfq
      rcases List.mem_cons.1 he with rfl | he
      · exact absurd hqu hu
      · exact ⟨_, List.mem_cons_self, rfl, he⟩
    · exact ⟨f, List.mem_cons_of_mem _ hf, hfq, he⟩

/-- An unvisited cell two moves away can be entered. -/
theorem dig (h : Sound width height ⟨maze, random, ⟨p, d :: pending⟩ :: stack⟩)
    (hu : maze.isUnvisited (p.offset d 2)) :
    Sound width height
      (enter (maze.carve (p.offset d 1)) random (⟨p, pending⟩ :: stack) (p.offset d 2)) := by
  have hp : maze.isVisited p := h.standing ⟨p, d :: pending⟩ List.mem_cons_self
  have hvisited : ∀ q, (maze.dig p d).isVisited q ↔ q = p.offset d 2 ∨ maze.isVisited q :=
    fun q => Maze.isVisited_dig (Maze.exists_get?_of_isUnvisited hu)
  refine ⟨h.grown.dig hp hu, fun f hf => (hvisited _).2 ?_, fun q e hq hqu => ?_⟩
  · rcases List.mem_cons.1 hf with rfl | hf
    · exact Or.inl rfl
    · rcases List.mem_cons.1 hf with rfl | hf
      · exact Or.inr hp
      · exact Or.inr (h.standing f (List.mem_cons_of_mem _ hf))
  · rcases (hvisited q).1 hq with rfl | hq
    · exact ⟨_, List.mem_cons_self, rfl, Lcg.mem_shuffle_all e random⟩
    · have hold := ((Maze.isUnvisited_dig maze p d _).1 hqu).2
      have hne : q.offset e 2 ≠ p.offset d 2 := ((Maze.isUnvisited_dig maze p d _).1 hqu).1
      obtain ⟨f, hf, hfq, he⟩ := h.tended q e hq hold
      rcases List.mem_cons.1 hf with rfl | hf
      · -- the frame that the dig went out from has one direction less to try
        subst hfq
        rcases List.mem_cons.1 he with rfl | he
        · exact absurd rfl hne
        · exact ⟨_, List.mem_cons_of_mem _ List.mem_cons_self, rfl, he⟩
      · exact ⟨f, List.mem_cons_of_mem _ (List.mem_cons_of_mem _ hf), hfq, he⟩

/-- **Every step keeps a carving sound.** -/
theorem step (h : Sound width height c) : Sound width height c.step := by
  obtain ⟨maze, random, stack⟩ := c
  match stack with
  | [] => exact h
  | ⟨p, []⟩ :: stack => exact h.leave
  | ⟨p, d :: pending⟩ :: stack =>
    rw [Carving.step]
    split
    · exact h.dig ‹_›
    · exact h.skip ‹_›

/-- A carving starts sound in a grid that has the first cell. -/
theorem of_start (seed : String) {b : Cell}
    (h : (Maze.blank width height).get? origin = some b) :
    Sound width height (start width height seed) := by
  have hgrown := Maze.Grown.of_blank h
  rw [start, h]
  refine ⟨hgrown, fun f hf => ?_, fun p d hp _ => ?_⟩
  · rcases List.mem_cons.1 hf with rfl | hf
    · exact hgrown.isVisited_origin
    · exact absurd hf List.not_mem_nil
  · obtain rfl := ((Maze.isVisited_visit h).1 hp).resolve_right
      (Maze.isVisited_blank width height p)
    exact ⟨_, List.mem_cons_self, rfl, Lcg.mem_shuffle_all d _⟩

end Sound

/-- **What every step keeps holds at the end of a carving.** -/
theorem run_preserves {P : Carving → Prop} (hstep : ∀ c, P c → P c.step) (h : P c) :
    P c.run ∧ c.run.stack = [] := by
  induction c using run.induct with
  | case1 c hs =>
    rw [run_of_stack_eq_nil hs]
    exact ⟨h, hs⟩
  | case2 c hs ih =>
    rw [run_step hs]
    exact ih (hstep c h)

/-- **A carving ends with a grown maze in which no cell two moves from an entered
one was left out.** -/
theorem grown_carved {b : Cell} (h : (Maze.blank width height).get? origin = some b)
    (seed : String) :
    (Maze.carved width height seed).Grown width height ∧
      ∀ p d, (Maze.carved width height seed).isVisited p →
        ¬(Maze.carved width height seed).isUnvisited (p.offset d 2) := by
  obtain ⟨hsound, hstack⟩ := run_preserves (fun c hc => hc.step) (Sound.of_start seed h)
  refine ⟨hsound.grown, fun p d hp hu => ?_⟩
  obtain ⟨f, hf, -⟩ := hsound.tended p d hp hu
  rw [hstack] at hf
  exact List.not_mem_nil hf

/-- Without the first cell there is nothing to carve. -/
theorem carved_of_get?_eq_none (h : (Maze.blank width height).get? origin = none)
    (seed : String) : Maze.carved width height seed = Maze.blank width height := by
  rw [Maze.carved, start, h]
  exact congrArg Carving.maze (run_of_stack_eq_nil rfl)

end Carving

end Labyrinth
