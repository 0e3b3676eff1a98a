/-
# What a carving costs

A carving pushes a frame for every cell that it enters, with four directions to try.
They are shuffled by three exchanges, one for each draw (`Lcg.exchanges`), and the
generator goes on from one shuffle to the next (`Carving.Shuffled`).  Five steps are
spent on the frame, one for each direction and one to leave the cell, which is a
balance that every step keeps (`Carving.Accounted`).  The cells entered are those with
two odd coordinates, so the sides of the grid alone fix what the carving costs
(`Carving.run_costs`).

Nothing is counted beside the carving.  A frame is seen by the stack that grows, and
its draws are the exchanges of the generator that the carving had before the step.
-/

import Labyrinth.Proofs.Carving.Shape
import Labyrinth.Proofs.Random.Shuffle

namespace Labyrinth
namespace Carving

variable {maze : Maze} {random : Lcg} {stack frames : List Frame} {p : Position} {d : Direction}
  {pending : List Direction} {width height steps : Nat} {seed : String} {c : Carving}

/-! ## Tries -/

/-- A direction that leads to a new cell is taken. -/
theorem step_of_isUnvisited (hu : maze.isUnvisited (p.offset d 2)) :
    step ⟨maze, random, ⟨p, d :: pending⟩ :: stack⟩ =
      enter (maze.carve (p.offset d 1)) random (⟨p, pending⟩ :: stack) (p.offset d 2) := by
  rw [step, if_pos hu]

/-- Any other direction is struck off. -/
theorem step_of_not_isUnvisited (hu : ¬maze.isUnvisited (p.offset d 2)) :
    step ⟨maze, random, ⟨p, d :: pending⟩ :: stack⟩ = ⟨maze, random, ⟨p, pending⟩ :: stack⟩ := by
  rw [step, if_neg hu]

/-! ## Entries -/

/-- A frame that was pushed, and the generator that shuffled its directions. -/
structure Entry where
  frame : Frame
  random : Lcg

/-- The entry into a cell with a generator. -/
def Entry.ofPosition (random : Lcg) (p : Position) : Entry :=
  ⟨⟨p, (random.shuffle Direction.all).1.toList⟩, random⟩

/-- The exchanges that a shuffle of the frame's directions makes, one for each draw. -/
def Entry.exchanges (e : Entry) : List (Nat × Nat) :=
  Lcg.exchanges (e.frame.pending.length - 1) e.random

/-- The entry that the next step makes, if the stack grows. -/
def entered (c : Carving) : List Entry :=
  if c.stack.length < c.step.stack.length then
    (c.step.stack.take 1).map fun f => ⟨f, c.random⟩
  else []

/-- The entries made until some steps are over, the last one first.  The frame at the
beginning was pushed with the generator of the seed. -/
def entries (seed : String) (c : Carving) : Nat → List Entry
  | 0 => c.stack.map fun f => ⟨f, Lcg.ofSeed seed⟩
  | steps + 1 => (step^[steps] c).entered ++ c.entries seed steps

/-- A step that does not let the stack grow makes no entry. -/
theorem entered_of_le (h : c.step.stack.length ≤ c.stack.length) : c.entered = [] :=
  if_neg (Nat.not_lt_of_le h)

/-- A direction that is struck off makes no entry. -/
theorem entered_of_not_isUnvisited (hu : ¬maze.isUnvisited (p.offset d 2)) :
    entered ⟨maze, random, ⟨p, d :: pending⟩ :: stack⟩ = [] := by
  refine entered_of_le ?_
  rw [step_of_not_isUnvisited hu]
  exact Nat.le_refl _

/-- **A direction that is taken makes an entry.** -/
theorem entered_of_isUnvisited (hu : maze.isUnvisited (p.offset d 2)) :
    entered ⟨maze, random, ⟨p, d :: pending⟩ :: stack⟩ = [.ofPosition random (p.offset d 2)] := by
  rw [entered, step_of_isUnvisited hu]
  exact if_pos (Nat.lt_succ_self _)

/-- **A step draws if it makes an entry, and only then**: the generator is left by the
shuffle, or as it was. -/
theorem entered_step (c : Carving) :
    c.entered = [] ∧ c.step.random = c.random ∨
      ∃ p, c.entered = [.ofPosition c.random p] ∧
        c.step.random = (c.random.shuffle Direction.all).2 := by
  obtain ⟨maze, random, stack⟩ := c
  match stack with
  | [] => exact Or.inl ⟨entered_of_le (Nat.le_refl _), rfl⟩
  | ⟨p, []⟩ :: stack => exact Or.inl ⟨entered_of_le (Nat.le_succ _), rfl⟩
  | ⟨p, d :: pending⟩ :: stack =>
    by_cases hu : maze.isUnvisited (p.offset d 2)
    · exact Or.inr ⟨p.offset d 2, entered_of_isUnvisited hu,
        congrArg Carving.random (step_of_isUnvisited hu)⟩
    · refine Or.inl ⟨entered_of_not_isUnvisited hu, ?_⟩
      rw [step_of_not_isUnvisited hu]

/-! ## Draws -/

variable {entries : List Entry}

/-- The entries of a carving with the generator after them: each one shuffled its
directions with the generator that the entry before it left. -/
structure Shuffled (seed : String) (entries : List Entry) (random : Lcg) : Prop where
  pending_eq : ∀ e ∈ entries, e.frame.pending = (e.random.shuffle Direction.all).1.toList
  random_eq : entries.reverse.map Entry.random =
    (List.range entries.length).map fun i => Lcg.advance^[3 * i] (Lcg.ofSeed seed)
  left_eq : random = Lcg.advance^[3 * entries.length] (Lcg.ofSeed seed)

namespace Shuffled

/-- Nothing is drawn before the first entry. -/
theorem nil (seed : String) : Shuffled seed [] (Lcg.ofSeed seed) where
  pending_eq _ he := absurd he List.not_mem_nil
  random_eq := rfl
  left_eq := rfl

/-- An entry draws three times more. -/
theorem cons (h : Shuffled seed entries random) (p : Position) :
    Shuffled seed (.ofPosition random p :: entries) (random.shuffle Direction.all).2 where
  pending_eq := List.forall_mem_cons.2 ⟨rfl, h.pending_eq⟩
  random_eq := by
    rw [List.reverse_cons, List.map_append, h.random_eq, List.length_cons, List.range_succ,
      List.map_append]
    exact congrArg (_ ++ [·]) h.left_eq
  left_eq := by
    rw [Lcg.shuffle_random, h.left_eq, ← Function.iterate_add_apply, List.length_cons]
    congr 1
    omega

/-- The four directions of a frame take three exchanges. -/
theorem length_exchanges (h : Shuffled seed entries random) {e : Entry} (he : e ∈ entries) :
    e.exchanges.length = 3 := by
  rw [Entry.exchanges, h.pending_eq e he, Vector.length_toList]
  rfl

/-- These are the exchanges of the shuffle. -/
theorem foldlM_exchanges (h : Shuffled seed entries random) {e : Entry} (he : e ∈ entries) :
    e.exchanges.foldlM Lcg.exchange? Direction.all = some (e.random.shuffle Direction.all).1 := by
  rw [Entry.exchanges, h.pending_eq e he, Vector.length_toList]
  exact Lcg.foldlM_exchange?_shuffle Direction.all e.random

/-- **There are three draws for each entry.** -/
theorem length_flatMap_exchanges (h : Shuffled seed entries random) :
    (entries.flatMap Entry.exchanges).length = 3 * entries.length := by
  rw [List.length_flatMap, List.map_congr_left fun e he => h.length_exchanges he,
    List.map_const', List.sum_replicate_nat, Nat.mul_comm]

/-- A carving starts with its first entry, if there is a cell to start from. -/
theorem start (width height : Nat) (seed : String) :
    Shuffled seed ((Carving.start width height seed).entries seed 0)
      (Carving.start width height seed).random := by
  rw [Carving.start, Carving.entries]
  cases (Maze.blank width height).get? origin with
  | some _ => exact (nil seed).cons origin
  | none => exact nil seed

/-- **After any number of steps** the generator is as many draws from the seed as the
entries made. -/
theorem iterate (width height : Nat) (seed : String) (j : Nat) :
    Shuffled seed ((Carving.start width height seed).entries seed j)
      (step^[j] (Carving.start width height seed)).random := by
  induction j with
  | zero => exact start width height seed
  | succ j ih =>
    rw [Function.iterate_succ_apply', Carving.entries]
    rcases entered_step (step^[j] (Carving.start width height seed)) with
      ⟨hentered, hrandom⟩ | ⟨p, hentered, hrandom⟩
    · rw [hentered, hrandom]
      exact ih
    · rw [hentered, hrandom]
      exact ih.cons p

end Shuffled

/-! ## The balance -/

/-- The accounts of a carving after some steps, with the frames pushed until then. -/
structure Accounted (steps : Nat) (frames : List Frame) (c : Carving) : Prop where
  nodup : (frames.map Frame.position).Nodup
  mem_iff : ∀ p, p ∈ frames.map Frame.position ↔ c.maze.isVisited p
  length_eq : frames.length = c.maze.visited
  steps_eq : steps + pendingWork c.stack = 5 * frames.length

namespace Accounted

/-- Nothing is owed before the first frame. -/
theorem blank (width height : Nat) (random : Lcg) :
    Accounted 0 [] ⟨Maze.blank width height, random, []⟩ where
  nodup := List.nodup_nil
  mem_iff p := iff_of_false List.not_mem_nil (Maze.isVisited_blank width height p)
  length_eq := (Maze.count_blank (fun _ _ => rfl) width height).symm
  steps_eq := rfl

/-- Opening cells costs nothing. -/
theorem carve (h : Accounted steps frames ⟨maze, random, stack⟩) (p : Position) :
    Accounted steps frames ⟨maze.carve p, random, stack⟩ where
  nodup := h.nodup
  mem_iff q := by
    rw [Maze.isVisited_carve]
    exact h.mem_iff q
  length_eq := h.length_eq.trans (maze.visited_carve p).symm
  steps_eq := h.steps_eq

/-- Work that is done costs a step. -/
theorem spend {stack' : List Frame} (h : Accounted steps frames ⟨maze, random, stack⟩)
    (hwork : pendingWork stack' + 1 = pendingWork stack) :
    Accounted (steps + 1) frames ⟨maze, random, stack'⟩ where
  nodup := h.nodup
  mem_iff := h.mem_iff
  length_eq := h.length_eq
  steps_eq := by
    have hsteps : steps + pendingWork stack = 5 * frames.length := h.steps_eq
    show steps + 1 + pendingWork stack' = 5 * frames.length
    omega

/-- **A cell is entered at the cost of its frame.** -/
theorem enter (h : Accounted steps frames ⟨maze, random, stack⟩) (hu : maze.isUnvisited p) :
    Accounted steps ((Entry.ofPosition random p).frame :: frames)
      (Carving.enter maze random stack p) := by
  obtain ⟨b, hb⟩ := Maze.exists_get?_of_isUnvisited hu
  have hnew : p ∉ frames.map Frame.position :=
    fun hp => Maze.not_isUnvisited_of_isVisited ((h.mem_iff p).1 hp) hu
  constructor
  · exact List.nodup_cons.2 ⟨hnew, h.nodup⟩
  · intro q
    rw [List.map_cons, List.mem_cons, Carving.enter, Maze.isVisited_visit hb]
    exact or_congr_right (h.mem_iff q)
  · rw [List.length_cons, Carving.enter, Maze.visited_visit hu]
    exact congrArg (· + 1) h.length_eq
  · have hsteps : steps + pendingWork stack = 5 * frames.length := h.steps_eq
    simp only [Carving.enter, pendingWork, Vector.length_toList, List.length_cons]
    omega

/-- **Every step keeps the balance**, as long as there are cells to leave. -/
theorem step (h : Accounted steps frames c) (hs : c.stack ≠ []) :
    Accounted (steps + 1) (c.entered.map Entry.frame ++ frames) c.step := by
  obtain ⟨maze, random, stack⟩ := c
  match stack with
  | [] => exact absurd rfl hs
  | ⟨p, []⟩ :: stack =>
    rw [entered_of_le (Nat.le_succ _)]
    exact h.spend (Nat.add_comm ..)
  | ⟨p, d :: pending⟩ :: stack =>
    have hwork : pendingWork (⟨p, pending⟩ :: stack) + 1 =
        pendingWork (⟨p, d :: pending⟩ :: stack) := by
      simp only [pendingWork, List.length_cons]
      omega
    have htried := h.spend hwork
    by_cases hu : maze.isUnvisited (p.offset d 2)
    · rw [entered_of_isUnvisited hu, step_of_isUnvisited hu]
      exact (htried.carve _).enter (by rwa [Maze.isUnvisited_carve])
    · rw [entered_of_not_isUnvisited hu, step_of_not_isUnvisited hu]
      exact htried

/-- A carving starts with the first frame on its account. -/
theorem start (width height : Nat) (seed : String) :
    Accounted 0 (((Carving.start width height seed).entries seed 0).map Entry.frame)
      (Carving.start width height seed) := by
  rw [Carving.start, Carving.entries]
  cases horigin : (Maze.blank width height).get? origin with
  | some b =>
    exact (blank width height _).enter ((Maze.isUnvisited_or_isVisited horigin).resolve_right
      (Maze.isVisited_blank width height origin))
  | none => exact blank width height _

/-- The balance holds as long as the carving goes on. -/
theorem iterate {k : Nat}
    (hs : ∀ j, j < k → (Carving.step^[j] (Carving.start width height seed)).stack ≠ []) :
    Accounted k (((Carving.start width height seed).entries seed k).map Entry.frame)
      (Carving.step^[k] (Carving.start width height seed)) := by
  induction k with
  | zero => exact start width height seed
  | succ k ih =>
    rw [Function.iterate_succ_apply', Carving.entries, List.map_append]
    exact (ih fun j hj => hs j (Nat.lt_succ_of_lt hj)).step (hs k (Nat.lt_succ_self k))

end Accounted

/-! ## The end -/

/-- **A carving ends after some number of steps**, and goes on until then. -/
theorem run_eq_iterate (c : Carving) :
    ∃ k, c.run = Carving.step^[k] c ∧ ∀ j, (Carving.step^[j] c).stack = [] ↔ k ≤ j := by
  induction c using run.induct with
  | case1 c hs =>
    have hfixed : c.step = c := by
      obtain ⟨maze, random, stack⟩ := c
      obtain rfl : stack = [] := hs
      rfl
    rw [run_of_stack_eq_nil hs]
    refine ⟨0, rfl, fun j => ?_⟩
    rw [Function.iterate_fixed hfixed]
    exact iff_of_true hs (Nat.zero_le j)
  | case2 c hs ih =>
    obtain ⟨k, hrun, hstack⟩ := ih
    rw [run_step hs]
    refine ⟨k + 1, hrun, fun j => ?_⟩
    cases j with
    | zero => exact iff_of_false hs (Nat.not_succ_le_zero k)
    | succ j => exact (hstack j).trans Nat.succ_le_succ_iff.symm

/-- The number of cells that carving enters. -/
theorem visited_carved (hw : width ≤ 2147483647) (hh : height ≤ 2147483647) (seed : String) :
    (Maze.carved width height seed).visited = width / 2 * (height / 2) := by
  by_cases h : 2 ≤ width ∧ 2 ≤ height
  · have hcovered := Maze.covered_carved h.1 h.2 seed
    exact hcovered.visited_eq (hcovered.fits hw hh)
  · have hcells : width / 2 * (height / 2) = 0 := by
      rw [Nat.mul_eq_zero]
      omega
    rw [Maze.carved_of_lt (by omega) seed, hcells]
    exact Maze.count_blank (fun _ _ => rfl) width height

/-- **A carving ends after five steps for each cell that it enters**, and its account
holds until then. -/
theorem accounted_run (hw : width ≤ 2147483647) (hh : height ≤ 2147483647) (seed : String) :
    let cells := width / 2 * (height / 2)
    let carving := Carving.start width height seed
    ((∀ j, (Carving.step^[j] carving).stack = [] ↔ 5 * cells ≤ j) ∧
      carving.run = Carving.step^[5 * cells] carving) ∧
    ((carving.entries seed (5 * cells)).map Entry.frame).length = cells ∧
    Accounted (5 * cells) ((carving.entries seed (5 * cells)).map Entry.frame) carving.run := by
  intro cells carving
  obtain ⟨k, hrun, hstack⟩ := run_eq_iterate carving
  have haccount : Accounted k ((carving.entries seed k).map Entry.frame) carving.run :=
    hrun ▸ .iterate fun j hj hs => Nat.not_le_of_lt hj ((hstack j).1 hs)
  have hframes : ((carving.entries seed k).map Entry.frame).length = cells :=
    haccount.length_eq.trans (visited_carved hw hh seed)
  -- no work is left, so the steps made are those that the frames cost
  have hsteps : k = 5 * cells := by
    have hempty : carving.run.stack = [] := hrun ▸ (hstack k).2 (Nat.le_refl k)
    have hbalance := haccount.steps_eq
    rwa [hempty, hframes] at hbalance
  subst hsteps
  exact ⟨⟨hstack, hrun⟩, hframes, haccount⟩

/-- **What a carving costs.**  In every grid whose cells all have positions, and for
every seed, take the number of cells with two odd coordinates, half the columns times
half the rows.  The carving ends after five steps for each of them and not before.  On
the way it pushes one frame for each of them, and none for any other cell.  The
directions of every frame were shuffled by the exchanges of its entry, one for each
draw; the first entry has the generator of the seed, and each other one the generator
that is three draws further.  At any time the generator is as many draws from the seed
as there were exchanges until then, and at the end these are three for each cell. -/
theorem run_costs (hw : width ≤ 2147483647) (hh : height ≤ 2147483647) (seed : String) :
    let cells := width / 2 * (height / 2)
    let carving := Carving.start width height seed
    let entries := carving.entries seed (5 * cells)
    let frames := entries.map Entry.frame
    ((∀ j, (Carving.step^[j] carving).stack = [] ↔ 5 * cells ≤ j) ∧
      carving.run = Carving.step^[5 * cells] carving) ∧
    (frames.length = cells ∧ (frames.map Frame.position).Nodup ∧
      ∀ p, p ∈ frames.map Frame.position ↔
        p.IsOdd ∧ (0 ≤ p.x ∧ p.x < width) ∧ (0 ≤ p.y ∧ p.y < height)) ∧
    (∀ e ∈ entries, e.frame.pending = (e.random.shuffle Direction.all).1.toList ∧
      e.exchanges.foldlM Lcg.exchange? Direction.all =
        some (e.random.shuffle Direction.all).1) ∧
    entries.reverse.map Entry.random =
      (List.range cells).map (fun i => Lcg.advance^[3 * i] (Lcg.ofSeed seed)) ∧
    (∀ j, (Carving.step^[j] carving).random =
      Lcg.advance^[((carving.entries seed j).flatMap Entry.exchanges).length]
        (Lcg.ofSeed seed)) ∧
    (entries.flatMap Entry.exchanges).length = 3 * cells ∧
    carving.run.random = Lcg.advance^[3 * cells] (Lcg.ofSeed seed) := by
  intro cells carving entries frames
  obtain ⟨⟨hstack, hrun⟩, hframes, haccount⟩ := accounted_run hw hh seed
  have hcells : entries.length = cells := (List.length_map Entry.frame).symm.trans hframes
  have hshuffled : ∀ j, Shuffled seed (carving.entries seed j) (Carving.step^[j] carving).random :=
    Shuffled.iterate width height seed
  have hdraws : (entries.flatMap Entry.exchanges).length = 3 * cells := by
    rw [(hshuffled _).length_flatMap_exchanges, hcells]
  have hrandom : ∀ j, (Carving.step^[j] carving).random =
      Lcg.advance^[((carving.entries seed j).flatMap Entry.exchanges).length]
        (Lcg.ofSeed seed) := by
    intro j
    rw [(hshuffled j).length_flatMap_exchanges]
    exact (hshuffled j).left_eq
  refine ⟨⟨hstack, hrun⟩, ⟨hframes, haccount.nodup, fun p => ?_⟩, fun e he =>
    ⟨(hshuffled _).pending_eq e he, (hshuffled _).foldlM_exchanges he⟩, ?_, hrandom, hdraws, ?_⟩
  · rw [haccount.mem_iff]
    exact (Maze.carved_isLattice width height seed).2.2 p
  · rw [← hcells]
    exact (hshuffled _).random_eq
  · rw [hrun, hrandom]
    exact congrArg (fun n => Lcg.advance^[n] (Lcg.ofSeed seed)) hdraws

/-- In a grid of five by four cells there are four odd cells: twenty steps, a frame for
each of the four, and twelve draws. -/
theorem run_costs_five_by_four :
    (Carving.step^[20] (Carving.start 5 4 "maze")).stack = [] ∧
      (Carving.step^[19] (Carving.start 5 4 "maze")).stack ≠ [] ∧
      ((Carving.start 5 4 "maze").entries "maze" 20).length = 4 ∧
      .nearest 3 3 ∈ ((Carving.start 5 4 "maze").entries "maze" 20).map (·.frame.position) ∧
      (((Carving.start 5 4 "maze").entries "maze" 20).flatMap Entry.exchanges).length = 12 ∧
      (Carving.start 5 4 "maze").run.random = Lcg.advance^[12] (Lcg.ofSeed "maze") := by
  have hcosts := @run_costs 5 4 (by decide) (by decide) "maze"
  simp only [Nat.reduceDiv, Nat.reduceMul, List.length_map, List.map_map] at hcosts
  obtain ⟨⟨hstack, -⟩, ⟨hframes, -, hodd⟩, -, -, -, hdraws, hrandom⟩ := hcosts
  exact ⟨(hstack 20).2 (by decide), fun h => absurd ((hstack 19).1 h) (by decide), hframes,
    (hodd _).2 ⟨⟨by decide, by decide⟩, by decide, by decide⟩, hdraws, hrandom⟩

end Carving
end Labyrinth
