/-
# How a program ends, by looking at its points

Moves lead through points of the plane, walls or none, and past the limits of
the coordinates (`Direction.targets`).  The verdict on a program looks only at
them: the program gets as far as the first move to a point that is not an open
cell, and it is a success if one of the moves before leads to the goal
(`Maze.verdict`).

Running a program comes to this verdict, from every position and also where
there is nothing to run (`execute_eq_verdict`).
-/

import Labyrinth.Proofs.Execution.Stepping

namespace Labyrinth

/-! ## Points -/

/-- The point of a position. -/
def Position.point (p : Position) : Int × Int := (p.x, p.y)

namespace Direction

/-- The point one move away. -/
def shift (d : Direction) (a : Int × Int) : Int × Int := (a.1 + d.dx, a.2 + d.dy)

/-- The points that moves lead to from a point, one after the other. -/
def targets (a : Int × Int) : List Direction → List (Int × Int)
  | [] => []
  | d :: ds => d.shift a :: targets (d.shift a) ds

end Direction

/-- The same ending after `n` moves more. -/
def Ending.later (n : Nat) : Ending → Ending
  | reached => .reached
  | blocked failedStep => .blocked (failedStep + n)
  | exhausted => .exhausted

/-- Without moves in front an ending is the same. -/
theorem Ending.later_zero (e : Ending) : e.later 0 = e := by
  cases e <;> rfl

/-- Moves in front add up. -/
theorem Ending.later_later (i j : Nat) (e : Ending) : (e.later i).later j = e.later (j + i) := by
  cases e with
  | blocked failedStep => rw [later, later, later, Nat.add_right_comm, Nat.add_assoc]
  | reached | exhausted => rfl

/-- They do not change that the program is used up. -/
theorem Ending.later_eq_exhausted_iff {n : Nat} {e : Ending} :
    e.later n = .exhausted ↔ e = .exhausted := by
  cases e <;> simp [later]

/-- They move a blocked move along. -/
theorem Ending.later_eq_blocked_iff {n k : Nat} {e : Ending} :
    e.later n = .blocked k ↔ ∃ j, e = .blocked j ∧ k = j + n := by
  cases e <;> simp [later, eq_comm]

namespace Maze

/-- Whether a point is that of an open cell. -/
def isOpenAt (m : Maze) (a : Int × Int) : Bool := (Position.ofInts? a.1 a.2).any m.isOpen

/-- The number of targets before the first one that is not open: all of them if
all are open. -/
def free (m : Maze) (targets : List (Int × Int)) : Nat := targets.findIdx (!m.isOpenAt ·)

/-- The index of the first target before all that are not open that is the
goal. -/
def arrival? (m : Maze) (goal : Int × Int) (targets : List (Int × Int)) : Option Nat :=
  (targets.take (m.free targets)).findIdx? (· = goal)

/-- How a program ends, and the points that it leads through. -/
def verdict (m : Maze) (start goal : Int × Int) (program : List Direction) :
    Ending × List (Int × Int) :=
  let targets := Direction.targets start program
  match m.arrival? goal targets with
  | some i => (.reached, start :: targets.take (i + 1))
  | none =>
    if m.free targets < program.length then
      (.blocked (m.free targets), start :: targets.take (m.free targets))
    else (.exhausted, start :: targets)

variable {m : Maze} {a b goal : Int × Int} {d : Direction} {ds : List Direction}
variable {targets : List (Int × Int)}

/-! ## The verdict, move by move -/

/-- A first target that is not open leaves none before it. -/
theorem free_cons_of_not (h : m.isOpenAt b = false) : m.free (b :: targets) = 0 := by
  rw [free, List.findIdx_cons, h]
  rfl

/-- A first target that is open is one more. -/
theorem free_cons (h : m.isOpenAt b = true) : m.free (b :: targets) = m.free targets + 1 := by
  rw [free, List.findIdx_cons, h]
  rfl

/-- Behind a target that is not open nothing is reached. -/
theorem arrival?_cons_of_not (h : m.isOpenAt b = false) :
    m.arrival? goal (b :: targets) = none := by
  rw [arrival?, free_cons_of_not h, List.take_zero, List.findIdx?_nil]

/-- The goal is reached at once if it is the first target. -/
theorem arrival?_cons_self (h : m.isOpenAt b = true) : m.arrival? b (b :: targets) = some 0 := by
  rw [arrival?, free_cons h, List.take_succ_cons, List.findIdx?_cons, decide_eq_true rfl]
  rfl

/-- Otherwise it is reached one move later than from there. -/
theorem arrival?_cons_of_ne (h : m.isOpenAt b = true) (hgoal : b ≠ goal) :
    m.arrival? goal (b :: targets) = (m.arrival? goal targets).map (· + 1) := by
  rw [arrival?, free_cons h, List.take_succ_cons, List.findIdx?_cons, decide_eq_false hgoal]
  rfl

/-- A program without moves is used up where it starts. -/
theorem verdict_nil (m : Maze) (a goal : Int × Int) : m.verdict a goal [] = (.exhausted, [a]) :=
  rfl

/-- A first move that is barred blocks it. -/
theorem verdict_barred (h : m.isOpenAt (d.shift a) = false) :
    m.verdict a goal (d :: ds) = (.blocked 0, [a]) := by
  simp only [verdict, Direction.targets, arrival?_cons_of_not h, free_cons_of_not h]
  rfl

/-- A first move to the goal is a success. -/
theorem verdict_arrived (h : m.isOpenAt (d.shift a) = true) :
    m.verdict a (d.shift a) (d :: ds) = (.reached, [a, d.shift a]) := by
  simp only [verdict, Direction.targets, arrival?_cons_self h]
  rfl

/-- Any other first move stands before the verdict on the rest. -/
theorem verdict_advance (h : m.isOpenAt (d.shift a) = true) (hgoal : d.shift a ≠ goal) :
    m.verdict a goal (d :: ds) =
      ((m.verdict (d.shift a) goal ds).1.later 1, a :: (m.verdict (d.shift a) goal ds).2) := by
  simp only [verdict, Direction.targets, arrival?_cons_of_ne h hgoal, free_cons h]
  cases m.arrival? goal (Direction.targets (d.shift a) ds) with
  | some i => rfl
  | none =>
    simp only [Option.map_none, List.length_cons, Nat.add_lt_add_iff_right]
    split <;> rfl

/-- The points of a verdict begin where the program does. -/
theorem verdict_path_eq_cons (m : Maze) (a goal : Int × Int) (ds : List Direction) :
    (m.verdict a goal ds).2 = a :: (m.verdict a goal ds).2.tail := by
  unfold verdict
  dsimp only
  split
  · rfl
  · split <;> rfl

/-- **The first moves lead through the first points.** -/
theorem path_verdict_take (m : Maze) (a goal : Int × Int) (ds : List Direction) (i : Nat) :
    (m.verdict a goal (ds.take i)).2 = (m.verdict a goal ds).2.take (i + 1) := by
  induction ds generalizing a i with
  | nil => rw [List.take_nil, verdict_nil, List.take_succ_cons, List.take_nil]
  | cons d ds ih =>
    cases i with
    | zero =>
      rw [List.take_zero, verdict_nil, verdict_path_eq_cons, List.take_succ_cons, List.take_zero]
    | succ i =>
      rw [List.take_succ_cons]
      cases hopen : m.isOpenAt (d.shift a) with
      | false =>
        rw [verdict_barred hopen, verdict_barred hopen, List.take_succ_cons, List.take_nil]
      | true =>
        by_cases hgoal : d.shift a = goal
        · rw [← hgoal, verdict_arrived hopen, verdict_arrived hopen, List.take_succ_cons,
            List.take_succ_cons, List.take_nil]
        · rw [verdict_advance hopen hgoal, verdict_advance hopen hgoal, List.take_succ_cons, ih]

end Maze

/-! ## Running comes to the verdict -/

/-- **A move can be made exactly if its target is open**, also at the limits of the range.
-/
theorem Maze.canMove_eq_isOpenAt (m : Maze) (p : Position) (d : Direction) :
    m.canMove p d = m.isOpenAt (d.shift p.point) := by
  rw [canMove, p.offset?_one]
  rfl

/-- Where a direction leads, its shift goes. -/
theorem Position.Leads.point_eq {p q : Position} {d : Direction} (h : p.Leads d q) :
    q.point = d.shift p.point :=
  Prod.ext h.1 h.2

/-- One position more on a path is one point more. -/
theorem Position.map_point_push (path : Array Position) (p : Position) :
    (path.push p).toList.map point = path.toList.map point ++ [p.point] := by
  rw [Array.toList_push, List.map_append, List.map_singleton]

/-- A position is known by its point. -/
theorem Position.point_inj {p q : Position} : p.point = q.point ↔ p = q := by
  rw [Position.ext_iff, point, point, Prod.mk.injEq]

namespace Execution

/-- **A run comes to the verdict on the moves that are left.** -/
theorem run_eq_verdict (m : Maze) (e : Execution) (h : e.result = none) :
    (e.run m).1.ending = (m.verdict e.position.point e.goal.point e.rest).1.later e.next ∧
      (e.run m).1.path.toList.map Position.point =
        e.path.toList.map Position.point ++
          (m.verdict e.position.point e.goal.point e.rest).2.tail := by
  -- the induction is on the moves that are left: the verdict on them counts from the
  -- next move, and the path already ends with the first of its points
  generalize hrest : e.rest = ds
  induction ds generalizing e with
  | nil =>
    rw [run_usedUp h hrest, Maze.verdict_nil]
    exact ⟨rfl, (List.append_nil _).symm⟩
  | cons d ds ih =>
    have hopen := m.canMove_eq_isOpenAt e.position d
    cases hmove : m.canMove e.position d with
    | false =>
      rw [hmove] at hopen
      rw [run_barred h hrest hmove, Maze.verdict_barred hopen.symm]
      refine ⟨?_, (List.append_nil _).symm⟩
      rw [Ending.later, Nat.zero_add]
    | true =>
      rw [hmove] at hopen
      have hpoint := (Maze.canMove_iff.1 hmove).1.point_eq
      by_cases hgoal : e.position.move d = e.goal
      · rw [run_arrived h hrest hmove hgoal, ← hgoal, hpoint, Maze.verdict_arrived hopen.symm]
        refine ⟨rfl, ?_⟩
        rw [Position.map_point_push, hpoint]
        rfl
      · have hne : d.shift e.position.point ≠ e.goal.point := by
          rw [← hpoint, Ne, Position.point_inj]
          exact hgoal
        have hmoved : (e.advance d).position.point = d.shift e.position.point := hpoint
        have hpushed : (e.advance d).path.toList.map Position.point =
            e.path.toList.map Position.point ++ [d.shift e.position.point] := by
          rw [advance, Position.map_point_push, hpoint]
        have hrest' := m.verdict_path_eq_cons (d.shift e.position.point) e.goal.point ds
        obtain ⟨hending, hpath⟩ := ih (e := e.advance d) h (rest_advance hrest)
        rw [hmoved] at hending hpath
        rw [run_advance h hrest hmove hgoal, Maze.verdict_advance hopen.symm hne]
        constructor
        · rw [Ending.later_later]
          exact hending
        · rw [hpath, hpushed, List.append_assoc, List.singleton_append, List.tail_cons]
          exact congrArg _ hrest'.symm

end Execution

variable (m : Maze) (start goal : Position) (program : List Direction)

/-- Executing ends as the verdict says. -/
theorem ending_execute :
    (execute m start goal program).ending = (m.verdict start.point goal.point program).1 := by
  obtain ⟨hending, -⟩ := (Execution.start start goal program).run_eq_verdict m rfl
  exact hending.trans (Ending.later_zero _)

/-- It leads through the points of the verdict. -/
theorem points_execute :
    (execute m start goal program).path.toList.map Position.point =
      (m.verdict start.point goal.point program).2 := by
  obtain ⟨-, hpath⟩ := (Execution.start start goal program).run_eq_verdict m rfl
  rw [m.verdict_path_eq_cons]
  exact hpath

/-- **The first moves of a program come as far** on the path as the program itself. -/
theorem path_execute_take (i : Nat) :
    (execute m start goal (program.take i)).path.toList =
      (execute m start goal program).path.toList.take (i + 1) := by
  refine (List.map_inj_right fun _ _ => Position.point_inj.1).1 ?_
  rw [List.map_take, points_execute, points_execute, Maze.path_verdict_take]

/-- **Running a program comes to the verdict.**  Let the points of the program be
its start and then each point displaced by one move, without limits.  The moves
before the first one to a point that is not an open cell can be made.  If one of
them leads to the goal, the first of these is the last move and the program is a
success; otherwise it is blocked by the first move that cannot be made, or used
up if all can. -/
theorem execute_eq_verdict (m : Maze) (start goal : Position) (program : List Direction) :
    ((execute m start goal program).ending,
      (execute m start goal program).path.toList.map Position.point) =
      m.verdict start.point goal.point program := by
  obtain ⟨hending, hpath⟩ := (Execution.start start goal program).run_eq_verdict m rfl
  have hstart := m.verdict_path_eq_cons start.point goal.point program
  refine Prod.ext (hending.trans (Ending.later_zero _)) ?_
  rw [hstart]
  exact hpath

/-- At the limit of the coordinates a move to the right leads to a point outside
every grid, so it is not made. -/
example : (Maze.blank 3 3).verdict (2147483647, 0) (1, 1) [.right, .left] =
    (.blocked 0, [(2147483647, 0)]) := by decide

end Labyrinth
