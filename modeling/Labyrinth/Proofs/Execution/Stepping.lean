/-
# What a step of an execution does

A step looks at the first of the moves that are left (`Execution.rest`) and ends
in one of six ways (`Execution.Stepped`): all that is shown about executions goes
through this list of cases (`Execution.stepped`).

To run an execution is to step it until a step says that it is finished.  As
equations: a run is over at once, or it is the run of the execution after one
move (`Execution.run_advance`), also when that move was the last one.
-/

import Labyrinth.Execution
import Labyrinth.Proofs.Displacement
import Labyrinth.Proofs.Walk

namespace Labyrinth

/-! ## Moves -/

/-- One move stays within the range or has no result; its shift is too short to leave it.
-/
theorem Position.offset?_one (p : Position) (d : Direction) :
    p.offset? d 1 = ofInts? (p.x + d.dx) (p.y + d.dy) := by
  cases d <;> rfl

/-- **A move can be made if it leads exactly to an open cell.** -/
theorem Maze.canMove_iff {m : Maze} {p : Position} {d : Direction} :
    m.canMove p d = true ↔ p.Leads d (p.move d) ∧ m.isOpen (p.move d) = true := by
  rw [canMove, Option.any_eq_true, p.offset?_one]
  constructor
  · rintro ⟨q, hq, hopen⟩
    have hl : p.Leads d q := Position.ofInts?_eq_some_iff.1 hq
    rw [hl.move_eq]
    exact ⟨hl, hopen⟩
  · rintro ⟨hl, hopen⟩
    exact ⟨_, Position.ofInts?_eq_some_iff.2 hl, hopen⟩

namespace Execution

/-- The moves that have not been run. -/
def rest (e : Execution) : List Direction := e.program.drop e.next

/-- All that a step can do and report. -/
inductive Stepped (m : Maze) (e : Execution) : Step × Execution → Prop
  /-- The execution was over and reports its outcome again. -/
  | ended {o : Outcome} : e.result = some o → Stepped m e (.finished o, e)
  /-- No move is left. -/
  | usedUp : e.result = none → e.rest = [] → Stepped m e (e.finish .exhausted)
  /-- The next move cannot be made. -/
  | barred {d : Direction} {ds : List Direction} : e.result = none → e.rest = d :: ds →
      m.canMove e.position d = false → Stepped m e (e.finish (.blocked e.next))
  /-- The next move leads to the goal. -/
  | arrived {d : Direction} {ds : List Direction} : e.result = none → e.rest = d :: ds →
      m.canMove e.position d = true → e.position.move d = e.goal →
      Stepped m e ((e.advance d).finish .reached)
  /-- The next move leads elsewhere and is the last one. -/
  | lastMove {d : Direction} : e.result = none → e.rest = [d] →
      m.canMove e.position d = true → e.position.move d ≠ e.goal →
      Stepped m e ((e.advance d).finish .exhausted)
  /-- The next move leads elsewhere and more follow. -/
  | moved {d : Direction} {ds : List Direction} : e.result = none → e.rest = d :: ds → ds ≠ [] →
      m.canMove e.position d = true → e.position.move d ≠ e.goal →
      Stepped m e (.moved e.next (e.position.move d), e.advance d)

variable {m : Maze} {e e' : Execution} {d : Direction} {ds : List Direction} {o : Outcome}

/-- The next move is the first of those that are left. -/
theorem head?_rest (e : Execution) : e.rest.head? = e.program[e.next]? :=
  List.head?_drop

/-- There are as many left as were not run. -/
theorem length_rest (e : Execution) : e.rest.length = e.program.length - e.next :=
  List.length_drop

/-- An advance takes the first of them off. -/
theorem rest_advance (h : e.rest = d :: ds) : (e.advance d).rest = ds := by
  have htail : e.rest.tail = e.program.drop (e.next + 1) := List.tail_drop
  rw [h, List.tail_cons] at htail
  exact htail.symm

/-- Without moves a step ends the execution. -/
theorem step_of_rest_eq_nil (h : e.result = none) (hrest : e.rest = []) :
    e.step m = e.finish .exhausted := by
  have hhead := e.head?_rest
  rw [hrest, List.head?_nil] at hhead
  rw [step, h, ← hhead]

/-- With a move it does one of four things: the move is barred, it leads to the goal, it is
the last one, or the execution goes on. -/
theorem step_of_rest_eq_cons (h : e.result = none) (hrest : e.rest = d :: ds) :
    e.step m =
      if m.canMove e.position d then
        if e.position.move d = e.goal then (e.advance d).finish .reached
        else if ds = [] then (e.advance d).finish .exhausted
        else (.moved e.next (e.position.move d), e.advance d)
      else e.finish (.blocked e.next) := by
  have hhead := e.head?_rest
  have hlength := e.length_rest
  rw [hrest, List.head?_cons] at hhead
  rw [hrest, List.length_cons] at hlength
  have hlast : e.next + 1 = e.program.length ↔ ds = [] := by
    rw [← List.length_eq_zero_iff]
    omega
  rw [step, h, ← hhead]
  simp only [← hlast]
  rfl

/-- **Every step is one of the six.** -/
theorem stepped (m : Maze) (e : Execution) : Stepped m e (e.step m) := by
  cases hresult : e.result with
  | some o =>
    rw [step, hresult]
    exact .ended hresult
  | none =>
    cases hrest : e.rest with
    | nil =>
      rw [step_of_rest_eq_nil hresult hrest]
      exact .usedUp hresult hrest
    | cons d ds =>
      rw [step_of_rest_eq_cons hresult hrest]
      split
      · rename_i hmove
        split
        · exact .arrived hresult hrest hmove ‹_›
        · rename_i hgoal
          split
          · rename_i hlast
            exact .lastMove hresult (hlast ▸ hrest) hmove hgoal
          · rename_i hlast
            exact .moved hresult hrest hlast hmove hgoal
      · rename_i hmove
        exact .barred hresult hrest (Bool.eq_false_iff.2 hmove)

/-- A step that does not end the execution makes one move, and more follow. -/
theorem exists_of_step_moved {i : Nat} {p : Position} (h : e.step m = (.moved i p, e')) :
    ∃ d ds, e.result = none ∧ e.rest = d :: ds ∧ ds ≠ [] ∧ m.canMove e.position d = true ∧
      e.position.move d ≠ e.goal ∧ i = e.next ∧ p = e.position.move d ∧ e' = e.advance d := by
  have hs := stepped m e
  rw [h] at hs
  cases hs with
  | moved hresult hrest hds hmove hgoal =>
    exact ⟨_, _, hresult, hrest, hds, hmove, hgoal, rfl, rfl, rfl⟩

/-- The execution is over: its outcome has its path, which ends where it is. -/
structure Settled (e : Execution) (o : Outcome) : Prop where
  result_eq : e.result = some o
  path_eq : o.path = e.path
  back?_eq : e.path.back? = some e.position

/-- **A step that ends an execution settles it.** -/
theorem settled_of_step_finished (hresult : e.result = none)
    (hback : e.path.back? = some e.position) (h : e.step m = (.finished o, e')) :
    e'.Settled o := by
  have hs := stepped m e
  rw [h] at hs
  cases hs with
  | ended ho =>
    rw [hresult] at ho
    cases ho
  | usedUp _ _ => exact ⟨rfl, rfl, hback⟩
  | barred _ _ _ => exact ⟨rfl, rfl, hback⟩
  | arrived _ _ _ _ => exact ⟨rfl, rfl, Array.back?_push⟩
  | lastMove _ _ _ _ => exact ⟨rfl, rfl, Array.back?_push⟩

/-- **The path grows with the moves:** it has a position more than moves were made. -/
theorem size_path_step (m : Maze) (h : e.path.size = e.next + 1) :
    (e.step m).2.path.size = (e.step m).2.next + 1 := by
  have hs := stepped m e
  revert hs
  generalize e.step m = after
  intro hs
  cases hs with
  | ended _ | usedUp _ _ | barred _ _ _ => exact h
  | arrived _ _ _ _ | lastMove _ _ _ _ | moved _ _ _ _ _ =>
    show (e.path.push _).size = e.next + 1 + 1
    rw [Array.size_push, h]

/-! ## Running -/

/-- A run ends with a step that finishes. -/
theorem run_of_step_finished (h : e.step m = (.finished o, e')) : e.run m = (o, e') := by
  rw [run]
  split
  · rename_i h'
    rw [h] at h'
    cases h'
    rfl
  · rename_i h'
    rw [h] at h'
    cases h'

/-- It goes on from a step that moves. -/
theorem run_of_step_moved {i : Nat} {p : Position} (h : e.step m = (.moved i p, e')) :
    e.run m = e'.run m := by
  rw [run]
  split
  · rename_i h'
    rw [h] at h'
    cases h'
  · rename_i h'
    rw [h] at h'
    cases h'
    rfl

/-- A run without moves is exhausted where it stands. -/
theorem run_usedUp (h : e.result = none) (hrest : e.rest = []) :
    e.run m = (⟨.exhausted, e.path⟩, (e.finish .exhausted).2) :=
  run_of_step_finished (step_of_rest_eq_nil h hrest)

/-- A run is blocked by a barred move. -/
theorem run_barred (h : e.result = none) (hrest : e.rest = d :: ds)
    (hmove : m.canMove e.position d = false) :
    e.run m = (⟨.blocked e.next, e.path⟩, (e.finish (.blocked e.next)).2) := by
  have hstep := step_of_rest_eq_cons (m := m) h hrest
  rw [hmove, if_neg Bool.false_ne_true] at hstep
  exact run_of_step_finished hstep

/-- A run is over with the move to the goal. -/
theorem run_arrived (h : e.result = none) (hrest : e.rest = d :: ds)
    (hmove : m.canMove e.position d = true) (hgoal : e.position.move d = e.goal) :
    e.run m =
      (⟨.reached, e.path.push (e.position.move d)⟩, ((e.advance d).finish .reached).2) := by
  have hstep := step_of_rest_eq_cons (m := m) h hrest
  rw [if_pos hmove, if_pos hgoal] at hstep
  exact run_of_step_finished hstep

/-- **A move that does not reach the goal goes on with the moves after it**, also
when there are none: then the run is used up. -/
theorem run_advance (h : e.result = none) (hrest : e.rest = d :: ds)
    (hmove : m.canMove e.position d = true) (hgoal : e.position.move d ≠ e.goal) :
    e.run m = (e.advance d).run m := by
  have hstep := step_of_rest_eq_cons (m := m) h hrest
  rw [if_pos hmove, if_neg hgoal] at hstep
  by_cases hlast : ds = []
  · rw [if_pos hlast] at hstep
    rw [run_of_step_finished hstep, run_usedUp (e := e.advance d) h
      ((rest_advance hrest).trans hlast)]
    rfl
  · rw [if_neg hlast] at hstep
    exact run_of_step_moved hstep

/-- An advance adds to the path. -/
theorem path_prefix_advance (e : Execution) (d : Direction) :
    e.path.toList <+: (e.advance d).path.toList := by
  rw [advance, Array.toList_push]
  exact List.prefix_append ..

/-- **A run goes on along the path that is there.** -/
theorem path_prefix_run (m : Maze) (e : Execution) (h : e.result = none) :
    e.path.toList <+: (e.run m).1.path.toList := by
  generalize hrest : e.rest = ds
  induction ds generalizing e with
  | nil =>
    exact ⟨[], by rw [run_usedUp h hrest, List.append_nil]⟩
  | cons d ds ih =>
    cases hmove : m.canMove e.position d with
    | false =>
      exact ⟨[], by rw [run_barred h hrest hmove, List.append_nil]⟩
    | true =>
      by_cases hgoal : e.position.move d = e.goal
      · rw [run_arrived h hrest hmove hgoal]
        exact e.path_prefix_advance d
      · rw [run_advance h hrest hmove hgoal]
        exact (e.path_prefix_advance d).trans (ih (e.advance d) h (rest_advance hrest))

end Execution

end Labyrinth
