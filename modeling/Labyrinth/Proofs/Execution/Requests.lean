/-
# What an execution keeps record of

An execution is asked to make steps and to run to its end, and each time it is
given the maze to move in.  The mazes need not agree, so nothing can be read off
a single run.  All the same the execution keeps a true record of its program
(`Execution.Recorded`): its path follows the moves up to the next one, exactly,
and the outcome says where the program stopped and why.  A step keeps the record
(`Execution.Recorded.step`), and what every step preserves, every list of
requests preserves (`Execution.respond_preserves`).

Once the execution is over, all further requests are answered with its outcome
and change nothing (`Execution.replay_of_result`).
-/

import Labyrinth.Proofs.Execution.Stepping
import Labyrinth.Proofs.Replay

namespace Labyrinth
namespace Execution

/-- What an execution is asked to do, with the maze to move in. -/
inductive Request
  /-- Make one step. -/
  | step (m : Maze)
  /-- Go on to the end. -/
  | run (m : Maze)

/-- The answer to a request.  A run reports that it is finished. -/
def respond (e : Execution) : Request → Step × Execution
  | .step m => e.step m
  | .run m => (.finished (e.run m).1, (e.run m).2)

variable {m : Maze} {e e' : Execution} {d : Direction} {ds : List Direction} {o : Outcome}
variable {start goal : Position} {program : List Direction}

/-! ## What steps preserve -/

/-- What a step in a maze preserves, a run in this maze preserves. -/
theorem run_preserves {P : Execution → Prop} (hstep : ∀ e, P e → P (e.step m).2)
    {e : Execution} (h : P e) : P (e.run m).2 := by
  have hnext := hstep e h
  match hreport : e.step m with
  | (.finished o, e') =>
    rw [hreport] at hnext
    rw [run_of_step_finished hreport]
    exact hnext
  | (.moved i p, e') =>
    rw [hreport] at hnext
    rw [run_of_step_moved hreport]
    exact run_preserves hstep hnext
termination_by e.remaining
decreasing_by exact remaining_of_step_moved hreport

/-- **What every step preserves, a list of requests preserves.** -/
theorem respond_preserves {P : Execution → Prop} (hstep : ∀ m e, P e → P (e.step m).2)
    {e : Execution} (h : P e) (requests : List Request) : P (replay respond e requests).2 := by
  refine replay_preserves respond (P := P) (fun e request he => ?_) h requests
  cases request with
  | step m => exact hstep m e he
  | run m => exact run_preserves (hstep m) he

/-! ## The end -/

/-- A finished execution answers a step with its outcome and stays as it is. -/
theorem step_of_result (h : e.result = some o) : e.step m = (.finished o, e) := by
  rw [step, h]

/-- A run of it gives the outcome again. -/
theorem run_of_result (h : e.result = some o) : e.run m = (o, e) :=
  run_of_step_finished (step_of_result h)

/-- **An execution that is over stays as it is**, and answers everything with its
outcome. -/
theorem replay_of_result (h : e.result = some o) (requests : List Request) :
    replay respond e requests = (List.replicate requests.length (.finished o), e) := by
  induction requests with
  | nil => rfl
  | cons request requests ih =>
    have hsame : e.respond request = (.finished o, e) := by
      cases request with
      | step m => exact step_of_result h
      | run m => rw [respond, run_of_result h]
    rw [replay_cons, hsame, ih, List.length_cons, List.replicate_succ]

/-! ## The record -/

/-- The path does not come to the goal after its start. -/
def AvoidsGoal (e : Execution) : Prop := ∀ i, 1 ≤ i → e.path[i]? ≠ some e.goal

/-- What an ending says about the execution that came to it. -/
def EndsAs (e : Execution) : Ending → Prop
  | .reached => e.position = e.goal ∧ 1 ≤ e.next
  | .blocked failedStep => failedStep = e.next ∧ e.next < e.program.length
  | .exhausted => e.next = e.program.length ∧ e.AvoidsGoal

/-- The execution follows a program from a start: its path begins there, has a
position more than moves were made, ends where the execution is, and goes on from
position to position by exactly the moves of the program. -/
structure Follows (start goal : Position) (program : List Direction) (e : Execution) : Prop where
  program_eq : e.program = program
  goal_eq : e.goal = goal
  head_eq : e.path[0]? = some start
  size_path : e.path.size = e.next + 1
  back?_eq : e.path.back? = some e.position
  next_le : e.next ≤ program.length
  leads : ∀ (i : Nat) (p q : Position), e.path[i]? = some p → e.path[i + 1]? = some q →
    ∃ d, program[i]? = some d ∧ p.Leads d q

/-- **The record of an execution is true.**  It follows its program.  As long as
it is not over, it has not come to the goal; once it is over, its outcome has its
path and says how it ended. -/
structure Recorded (start goal : Position) (program : List Direction) (e : Execution) : Prop
    extends Follows start goal program e where
  unfinished : e.result = none → e.AvoidsGoal
  finished : ∀ o, e.result = some o → o.path = e.path ∧ e.EndsAs o.ending

/-- An advance adds one position and keeps the others in their places. -/
theorem getElem?_path_advance (e : Execution) (d : Direction) (i : Nat) :
    (e.advance d).path[i]? = if i = e.path.size then some (e.position.move d) else e.path[i]? :=
  Array.getElem?_push

/-- An execution starts with nothing run and with its first position. -/
theorem follows_start (start goal : Position) (program : List Direction) :
    Follows start goal program (.start start goal program) where
  program_eq := rfl
  goal_eq := rfl
  head_eq := rfl
  size_path := rfl
  back?_eq := rfl
  next_le := Nat.zero_le _
  leads _ _ _ _ hq := by cases hq

namespace Follows

/-- The next of the moves that are left. -/
theorem getElem?_next (h : Follows start goal program e) (hrest : e.rest = d :: ds) :
    program[e.next]? = some d := by
  have hhead := e.head?_rest
  rw [hrest, List.head?_cons, h.program_eq] at hhead
  exact hhead.symm

/-- The next move is one of the program. -/
theorem next_lt (h : Follows start goal program e) (hrest : e.rest = d :: ds) :
    e.next < program.length :=
  (List.getElem?_eq_some_iff.1 (h.getElem?_next hrest)).1

/-- Where no move is left, all of them were made. -/
theorem next_eq (h : Follows start goal program e) (hrest : e.rest = []) :
    e.next = program.length := by
  have hlength := e.length_rest
  have hle := h.next_le
  rw [hrest, List.length_nil, h.program_eq] at hlength
  omega

/-- **A move that can be made goes on along the program.** -/
theorem advance (h : Follows start goal program e) (hrest : e.rest = d :: ds)
    (hmove : m.canMove e.position d = true) : Follows start goal program (e.advance d) where
  program_eq := h.program_eq
  goal_eq := h.goal_eq
  head_eq := by
    have hsize := h.size_path
    rw [getElem?_path_advance, if_neg (by omega)]
    exact h.head_eq
  size_path := by
    show (e.path.push _).size = e.next + 1 + 1
    rw [Array.size_push, h.size_path]
  back?_eq := Array.back?_push
  next_le := h.next_lt hrest
  leads i p q hp hq := by
    have hsize := h.size_path
    rw [getElem?_path_advance] at hp hq
    split at hq
    · -- the last two positions are the one before the move and the one after it
      rename_i hi
      have hlast : e.path[i]? = some e.position := by
        rw [← h.back?_eq, Array.back?_eq_getElem?, ← hi, Nat.add_sub_cancel]
      rw [if_neg (by omega), hlast] at hp
      obtain rfl := Option.some.inj hp
      obtain rfl := Option.some.inj hq
      have hnext : i = e.next := by omega
      rw [hnext]
      exact ⟨d, h.getElem?_next hrest, (Maze.canMove_iff.1 hmove).1⟩
    · have hlt := (Array.getElem?_eq_some_iff.1 hq).1
      rw [if_neg (by omega)] at hp
      exact h.leads i p q hp hq

/-- Ending an execution leaves all this as it is. -/
theorem finish (h : Follows start goal program e) (ending : Ending) :
    Follows start goal program (e.finish ending).2 :=
  ⟨h.program_eq, h.goal_eq, h.head_eq, h.size_path, h.back?_eq, h.next_le, h.leads⟩

/-- An execution that follows its program is ended with a true record. -/
theorem recorded_finish (h : Follows start goal program e) {ending : Ending}
    (hends : e.EndsAs ending) : Recorded start goal program (e.finish ending).2 where
  toFollows := h.finish ending
  unfinished hresult := by cases hresult
  finished o ho := by
    obtain rfl := Option.some.inj ho
    refine ⟨rfl, ?_⟩
    cases ending with
    | reached | blocked | exhausted => exact hends

end Follows

/-- The path keeps off the goal as long as the moves do. -/
theorem AvoidsGoal.advance (h : e.AvoidsGoal) (hgoal : e.position.move d ≠ e.goal) :
    (e.advance d).AvoidsGoal := by
  intro i hi
  rw [getElem?_path_advance]
  split
  · exact fun heq => hgoal (Option.some.inj heq)
  · exact h i hi

/-- What is recorded at the start. -/
theorem recorded_start (start goal : Position) (program : List Direction) :
    Recorded start goal program (.start start goal program) where
  toFollows := follows_start start goal program
  unfinished _ i hi := by
    show #[start][i]? ≠ some goal
    rw [Array.getElem?_eq_none (by exact hi)]
    rintro ⟨⟩
  finished _ ho := by cases ho

/-- **A step keeps the record true**, whichever of the six it is. -/
theorem Recorded.step (h : Recorded start goal program e) (m : Maze) :
    Recorded start goal program (e.step m).2 := by
  have hstep := e.stepped m
  revert hstep
  generalize e.step m = stepped
  intro hstep
  have hprogram := h.program_eq
  cases hstep with
  | ended _ => exact h
  | usedUp hresult hrest =>
    refine h.recorded_finish ⟨?_, h.unfinished hresult⟩
    rw [h.next_eq hrest, hprogram]
  | barred _ hrest _ =>
    refine h.recorded_finish ⟨rfl, ?_⟩
    rw [hprogram]
    exact h.next_lt hrest
  | arrived _ hrest hmove hgoal =>
    exact (h.advance hrest hmove).recorded_finish ⟨hgoal, Nat.succ_pos _⟩
  | lastMove hresult hrest hmove hgoal =>
    have hadvance := h.advance hrest hmove
    refine hadvance.recorded_finish ⟨?_, (h.unfinished hresult).advance hgoal⟩
    rw [hadvance.next_eq (rest_advance hrest), hadvance.program_eq]
  | moved hresult hrest _ hmove hgoal =>
    refine ⟨h.advance hrest hmove, fun _ => (h.unfinished hresult).advance hgoal, fun o ho => ?_⟩
    have hsome : e.result = some o := ho
    rw [hresult] at hsome
    cases hsome

/-- **Every list of requests keeps the record.** -/
theorem recorded_replay (start goal : Position) (program : List Direction)
    (requests : List Request) :
    Recorded start goal program (replay respond (.start start goal program) requests).2 :=
  respond_preserves (P := Recorded start goal program) (fun m _ h => h.step m)
    (recorded_start start goal program) requests

/-- **Executions keep a true record, whatever they are asked.**  Let an execution of
a program answer any requests for steps and runs, each in a maze of its own.  Then
its path begins with the start, has one position more than moves were made, ends
where the execution is and follows the first moves of the program exactly.  While
the execution is not over, no position after the first is the goal.  When it is
over, the outcome has the path of the execution; it is a success only at the goal
and after a move, blocked only at the next move, which is one of the program, and
used up only after all moves, none of which led to the goal.  From then on every
request, in whatever maze, is answered with this outcome and changes nothing. -/
theorem recorded_of_requests (start goal : Position) (program : List Direction)
    (requests : List Request) :
    let e := (replay respond (.start start goal program) requests).2
    Recorded start goal program e ∧
    ∀ o, e.result = some o → (∀ m, e.step m = (.finished o, e) ∧ e.run m = (o, e)) ∧
      ∀ later, replay respond e later = (List.replicate later.length (.finished o), e) := by
  intro e
  exact ⟨recorded_replay start goal program requests,
    fun o ho => ⟨fun m => ⟨step_of_result ho, run_of_result ho⟩, replay_of_result ho⟩⟩

/-- A step to the right in an empty room, and one down in a maze of walls: the
program is blocked by its second move, and this stays so back in the room. -/
theorem recorded_of_requests_two_mazes :
    let room : Maze := .ofFn 3 3 fun x y => ⟨x, y, false, false⟩
    let e := (replay respond (.start (.nearest 0 0) (.nearest 2 2) [.right, .down])
      [.step room, .step (.blank 3 3)]).2
    e.result = some ⟨.blocked 1, #[.nearest 0 0, .nearest 1 0]⟩ ∧ e.next = 1 ∧
      e.path.size = 2 ∧ e.run room = (⟨.blocked 1, #[.nearest 0 0, .nearest 1 0]⟩, e) := by
  intro room e
  have hresult : e.result = some ⟨.blocked 1, #[.nearest 0 0, .nearest 1 0]⟩ := by decide +kernel
  obtain ⟨hrecorded, hover⟩ := recorded_of_requests (.nearest 0 0) (.nearest 2 2) [.right, .down]
    [.step room, .step (.blank 3 3)]
  have hnext : 1 = e.next := (hrecorded.finished _ hresult).2.1
  have hsize : e.path.size = e.next + 1 := hrecorded.size_path
  rw [← hnext] at hsize
  exact ⟨hresult, hnext.symm, hsize, ((hover _ hresult).1 room).2⟩

end Execution
end Labyrinth
