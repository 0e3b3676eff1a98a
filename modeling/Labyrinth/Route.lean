/-
# Shortest routes

A breadth-first search over the open cells of a maze.  Cells that were reached
wait in a queue, the first one found in front.  The search takes the next cell
and tries the four directions from it: a cell that is open and new is linked to
the cell that it was reached from, and waits in its turn.  The search is over
when it comes upon the goal or when no cell is waiting.  The links then lead
back from the goal to the start.

Every round takes a cell from the queue, and a cell joins the queue only when it
gets its one link (`Search.size_step`), so the search ends on every maze.
-/

import Labyrinth.Maze

namespace Labyrinth

/-- How a search came to a cell: the cell before it, and the move from there. -/
structure Link where
  origin : Position
  direction : Direction
deriving DecidableEq, Repr

/-- A search in progress: the links of the cells reached so far, the cells from
which it has still to go on, and whether it came upon the goal. -/
structure Search where
  links : Grid (Option Link)
  queue : List Position
  found : Bool
deriving DecidableEq

namespace Search

/-- The search that stands at `start`. -/
def ofStart (maze : Maze) (start goal : Position) : Search :=
  ⟨maze.map fun _ => none, [start], start = goal⟩

/-- The link of a cell, if it has one. -/
def link? (s : Search) (p : Position) : Option Link := (s.links.get? p).join

/-- The number of links. -/
def linked (s : Search) : Nat := s.links.count Option.isSome

/-- Whether the search may go on to a cell: it is open, and it is neither the
start nor linked. -/
def IsNew (maze : Maze) (start : Position) (s : Search) (p : Position) : Prop :=
  p ≠ start ∧ s.links.get? p = some none ∧ maze.isOpen p

/-- Whether a position is new can be looked up. -/
instance (maze : Maze) (start : Position) (s : Search) (p : Position) :
    Decidable (s.IsNew maze start p) := inferInstanceAs (Decidable (_ ∧ _ ∧ _))

/-- Gives a cell its link. -/
def addLink (s : Search) (p : Position) (l : Link) : Search :=
  { s with links := s.links.modify p fun _ => some l }

/-- Tries moves from a cell, one after the other, until one comes upon the
goal. -/
def tryMoves (maze : Maze) (start goal p : Position) : List Direction → Search → Search
  | [], s => s
  | d :: ds, s =>
    if s.IsNew maze start (p.move d) then
      let after := s.addLink (p.move d) ⟨p, d⟩
      if p.move d = goal then { after with found := true }
      else tryMoves maze start goal p ds { after with queue := s.queue ++ [p.move d] }
    else tryMoves maze start goal p ds s

/-- One round: goes on from the cell in front of the queue. -/
def step (maze : Maze) (start goal : Position) : Search → Search
  | ⟨links, [], found⟩ => ⟨links, [], found⟩
  | ⟨links, p :: queue, found⟩ =>
    tryMoves maze start goal p Direction.all.toList ⟨links, queue, found⟩

/-- Whether there is nothing left to do. -/
def isOver (s : Search) : Bool := s.found || s.queue.isEmpty

/-- The cells without a link and the cells that wait. -/
def size (s : Search) : Nat := s.links.count Option.isNone + s.queue.length

/-- Trying moves never adds to what bounds the search. -/
theorem size_tryMoves (maze : Maze) (start goal p : Position) (ds : List Direction) (s : Search) :
    (tryMoves maze start goal p ds s).size ≤ s.size := by
  induction ds generalizing s with
  | nil => exact Nat.le_refl _
  | cons d ds ih =>
    rw [tryMoves]
    split
    · rename_i h
      have hc := Grid.count_modify h.2.1 (fun _ => some ⟨p, d⟩) Option.isNone
      simp only [Option.isNone_none, Option.isNone_some, if_true, Bool.false_eq_true,
        if_false] at hc
      split
      · simp only [size, addLink]
        omega
      · refine Nat.le_trans (ih _) ?_
        simp only [size, addLink, List.length_append, List.length_singleton]
        omega
    · exact ih s

/-- **A round takes a cell from the queue for good.** -/
theorem size_step (maze : Maze) (start goal : Position) {s : Search} (h : ¬s.isOver) :
    (s.step maze start goal).size < s.size := by
  obtain ⟨links, queue, found⟩ := s
  cases queue with
  | nil => simp [isOver] at h
  | cons p queue =>
    refine Nat.lt_of_le_of_lt (size_tryMoves ..) ?_
    simp [size]

/-- Goes on, round by round, until the search is over. -/
def run (maze : Maze) (start goal : Position) (s : Search) : Search :=
  if _ : s.isOver then s else run maze start goal (s.step maze start goal)
termination_by s.size
decreasing_by exact size_step maze start goal ‹_›

/-! ## The way back -/

/-- Why links do not lead back to the start. -/
inductive Stray
  /-- A cell on the way has no link. -/
  | noLink (p : Position)
  /-- More links would have to be followed than allowed. -/
  | endless
deriving DecidableEq, Repr

/-- Follows at most `n` links back to the start; `moves` lead on from the cell
that it has come to. -/
def retrace (start : Position) (s : Search) :
    (n : Nat) → Position → (moves : List Direction) → Except Stray (List Direction)
  | n, p, moves =>
    if p = start then .ok moves
    else match s.link? p with
      | none => .error (.noLink p)
      | some l =>
        match n with
        | 0 => .error .endless
        | n + 1 => retrace start s n l.origin (l.direction :: moves)

/-- At the start there is nothing to retrace. -/
@[simp]
theorem retrace_start (start : Position) (s : Search) (n : Nat) (moves : List Direction) :
    s.retrace start n start moves = .ok moves := by
  rw [retrace, if_pos rfl]

/-- Elsewhere the link of the position is the last move, and the rest leads to where it came
from. -/
theorem retrace_link {start p : Position} {s : Search} {l : Link} (hp : p ≠ start)
    (hl : s.link? p = some l) (n : Nat) (moves : List Direction) :
    s.retrace start (n + 1) p moves = s.retrace start n l.origin (l.direction :: moves) := by
  rw [retrace, if_neg hp, hl]

/-- The moves from the start to a cell, as the links tell them.  A way back that
follows more links than there are would go in circles. -/
def route (start : Position) (s : Search) (p : Position) : Except Stray (List Direction) :=
  s.retrace start s.linked p []

end Search

/-- A shortest list of moves from one open cell to another through open cells,
or nothing if there is none. -/
def Maze.shortestRoute? (maze : Maze) (start goal : Position) : Option (List Direction) :=
  if maze.isOpen start && maze.isOpen goal then
    let s := (Search.ofStart maze start goal).run maze start goal
    if s.found then (s.route start goal).toOption else none
  else none

end Labyrinth
