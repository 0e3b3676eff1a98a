/-
# A running program is in step with what is shown

A session keeps much of what it knows twice: whether the program runs and the
execution, the blocks and the execution's own copy of them, the character with
its path and those of the execution.  While the program runs, the session shows
the execution (`Session.Shows`); while it does not, an execution that is still
there is over.  Every action keeps this up (`Session.Coherent.effect`), so it
holds all through a game (`Session.running_in_step`).
-/

import Labyrinth.Proofs.Puzzle.Generation
import Labyrinth.Proofs.Session.Effects

namespace Labyrinth
namespace Session

/-- **The session shows the execution**, which is in progress: it has the blocks
of the program and the goal of the puzzle, it is where the character is, it came
along the path, and there are moves left. -/
structure Shows (s : Session) (e : Execution) : Prop where
  running : s.isRunning = true
  execution?_eq : s.execution? = some e
  unfinished : e.result = none
  program_eq : e.program = s.program.blocks
  goal_eq : e.goal = s.puzzle.goal
  position_eq : e.position = s.character
  path_eq : e.path = s.path
  back?_eq : e.path.back? = some e.position
  rest_ne : e.rest ≠ []

/-- The session shows an execution if the program runs, and has at most one that
is over if it does not. -/
structure Coherent (s : Session) : Prop where
  running : s.isRunning = true → ∃ e, s.Shows e
  idle : s.isRunning = false → ∀ e, s.execution? = some e → e.isFinished = true

variable {s s' : Session} {e e' : Execution} {o : Outcome} {i : Nat} {p : Position}

/-! ## Steps -/

/-- What is shown runs. -/
theorem Shows.running?_eq (h : s.Shows e) : s.running? = some e :=
  running?_eq_some_iff.2 ⟨h.running, h.execution?_eq⟩

/-- A step of the session is a step of the execution that it shows. -/
theorem Shows.exists_of_step (h : s.Shows e) {report : Step} (hstep : s.step = (some report, s')) :
    ∃ e', e.step s.puzzle.maze = (report, e') ∧ s' = s.follow e' := by
  rw [step_of_running? h.running?_eq] at hstep
  cases hstep
  exact ⟨_, rfl, rfl⟩

/-- The next move is one of the blocks. -/
theorem Shows.next_lt (h : s.Shows e) : e.next < s.program.length := by
  have hlength := e.length_rest
  have hpos := List.length_pos_iff.2 h.rest_ne
  rw [Program.length, ← h.program_eq]
  omega

/-- The session counts the moves that it ran. -/
theorem Shows.currentStep_eq (h : s.Shows e) : s.currentStep = e.next := by
  rw [currentStep, h.execution?_eq]
  rfl

/-- An execution that is shown has not finished. -/
theorem Shows.isFinished_eq_false (h : s.Shows e) : e.isFinished = false := by
  rw [Execution.isFinished, h.unfinished]
  rfl

/-- The session of an execution that is shown has moves to run. -/
theorem Shows.program_ne (h : s.Shows e) : e.program ≠ [] := by
  intro hempty
  refine h.rest_ne ?_
  rw [Execution.rest, hempty, List.drop_nil]

/-- A program with blocks starts to run. -/
theorem shows_started (h : s.program.isEmpty = false) :
    s.started.Shows (.start s.puzzle.start s.puzzle.goal s.program.blocks) where
  running := rfl
  execution?_eq := rfl
  unfinished := rfl
  program_eq := rfl
  goal_eq := rfl
  position_eq := rfl
  path_eq := rfl
  back?_eq := rfl
  rest_ne := List.isEmpty_eq_false_iff.1 h

/-- After a step that does not end the program, the execution is shown one move
later. -/
theorem Shows.follow_moved (h : s.Shows e) (hstep : e.step s.puzzle.maze = (.moved i p, e')) :
    (s.follow e').Shows e' := by
  obtain ⟨d, ds, hresult, hrest, hds, -, -, -, -, rfl⟩ := Execution.exists_of_step_moved hstep
  refine ⟨?_, rfl, hresult, h.program_eq, h.goal_eq, rfl, rfl, Array.back?_push, ?_⟩
  · rw [isRunning, phase_follow_of_none (e := e.advance d) hresult]
    exact h.running
  · rw [Execution.rest_advance hrest]
    exact hds

/-- After a step that ends the program it is not running. -/
theorem isRunning_follow_of_settled (h : e'.Settled o) : (s.follow e').isRunning = false := by
  rw [isRunning, phase_follow_of_some h.result_eq]
  cases o.ending <;> rfl

/-- A step that finishes settles it. -/
theorem Shows.settled (h : s.Shows e) (hstep : e.step s.puzzle.maze = (.finished o, e')) :
    e'.Settled o :=
  Execution.settled_of_step_finished h.unfinished h.back?_eq hstep

/-! ## Every effect keeps a session coherent -/

/-- A session that shows an execution is coherent. -/
theorem Shows.coherent (h : s.Shows e) : s.Coherent where
  running _ := ⟨e, h⟩
  idle hidle := by
    rw [h.running] at hidle
    cases hidle

/-- A session that is not running is coherent, unless it has an execution that has not finished. -/
theorem coherent_of_idle (hidle : s.isRunning = false)
    (h : ∀ e, s.execution? = some e → e.isFinished = true) : s.Coherent where
  running hrunning := by
    rw [hidle] at hrunning
    cases hrunning
  idle _ := h

/-- Going back to the start drops an execution in progress. -/
theorem Coherent.rewind (h : s.Coherent) : s.rewind.Coherent := by
  refine coherent_of_idle rfl fun e he => ?_
  cases hrunning : s.isRunning with
  | true =>
    rw [Session.rewind, hrunning] at he
    cases he
  | false =>
    rw [Session.rewind, hrunning] at he
    exact h.idle hrunning e he

/-- A session without an execution is coherent when it is put back. -/
theorem coherent_rewind_of_execution?_eq_none (h : s.execution? = none) :
    s.rewind.Coherent := by
  refine coherent_of_idle rfl fun e he => ?_
  rw [Session.rewind, h, ite_self] at he
  cases he

/-- **A step keeps a session coherent.** -/
theorem Shows.coherent_step (h : s.Shows e) : (s.follow (e.step s.puzzle.maze).2).Coherent := by
  match hstep : e.step s.puzzle.maze with
  | (.moved i p, e') => exact (h.follow_moved hstep).coherent
  | (.finished o, e') =>
    have hsettled := h.settled hstep
    refine coherent_of_idle (isRunning_follow_of_settled hsettled) fun e'' he => ?_
    obtain rfl : e' = e'' := Option.some.inj he
    exact Option.isSome_of_eq_some hsettled.result_eq

/-- The execution in progress is the one that is shown. -/
theorem Coherent.shows (h : s.Coherent) (hr : s.running? = some e) : s.Shows e := by
  obtain ⟨hrunning, hexecution⟩ := running?_eq_some_iff.1 hr
  obtain ⟨e', hshows⟩ := h.running hrunning
  rw [hshows.execution?_eq] at hexecution
  exact Option.some.inj hexecution ▸ hshows

/-- **Every effect keeps a session coherent.** -/
theorem Coherent.effect (heffect : s.Effect s') (h : s.Coherent) : s'.Coherent := by
  cases heffect with
  | nothing => exact h
  | edit program hidle => exact coherent_of_idle hidle (h.idle hidle)
  | clear program hidle =>
    have hedit : Coherent { s with program } := coherent_of_idle hidle (h.idle hidle)
    exact hedit.rewind
  | renew seed puzzle _ _ => exact coherent_rewind_of_execution?_eq_none rfl
  | play _ hempty => exact (shows_started hempty).coherent
  | step hr => exact (h.shows hr).coherent_step
  | cancel => exact coherent_rewind_of_execution?_eq_none rfl
  | rewind => exact h.rewind

/-- A new session is coherent. -/
theorem coherent_ofPuzzle (width height : Nat) (seed : String) (puzzle : Puzzle) :
    (ofPuzzle width height seed puzzle).Coherent :=
  coherent_of_idle rfl (by rintro e ⟨⟩)

/-- **Every reachable session is coherent.** -/
theorem Reachable.coherent (h : s.Reachable) : s.Coherent :=
  h.invariant (fun _ => coherent_ofPuzzle ..) Coherent.effect

/-- Either the program runs and its execution is shown, or it does not run and no
execution is left in progress. -/
theorem Coherent.cases (h : s.Coherent) :
    (s.phase = .running ∧ ∃ e, s.Shows e) ∨
      (s.phase ≠ .running ∧ s.isRunning = false ∧
        ∀ e, s.execution? = some e → e.isFinished = true) := by
  cases hr : s.isRunning with
  | true => exact Or.inl ⟨of_decide_eq_true hr, h.running hr⟩
  | false => exact Or.inr ⟨of_decide_eq_false hr, rfl, h.idle hr⟩

/-- With both sides at least four there is a game for every seed. -/
theorem exists_reachable_ofPuzzle {width height : Nat} (hw : 4 ≤ width ∧ width ≤ 2147483647)
    (hh : 4 ≤ height ∧ height ≤ 2147483647) (seed : String) :
    ∃ puzzle, (ofPuzzle width height seed puzzle).Reachable := by
  obtain ⟨-, puzzle, -, -, hpuzzle, -⟩ := Puzzle.generate_of_le hw hh seed
  have hcreate : create width height seed = .ok (ofPuzzle width height seed puzzle) := by
    rw [create, hpuzzle]
  exact ⟨puzzle, .created hcreate⟩

/-! ## Playing out -/

/-- The session after a number of steps. -/
def afterSteps (s : Session) : Nat → Session
  | 0 => s
  | n + 1 => (s.afterSteps n).step.2

/-- After `n` steps, none of which ended the program, the session is `last`, with
at least `n` moves behind it. -/
structure Gone (s : Session) (n : Nat) (last : Session) : Prop where
  last_eq : s.afterSteps n = last
  moved : ∀ i < n, ∃ k p, (s.afterSteps i).step.1 = some (.moved k p)
  program_eq : last.program = s.program
  shows : ∃ e, last.Shows e ∧ n ≤ e.next

/-- A step that moves is one more of those that were gone. -/
theorem Gone.next {n : Nat} {last next : Session} (h : s.Gone n last)
    (hstep : last.step = (some (.moved i p), next)) : s.Gone (n + 1) next := by
  obtain ⟨e, hshows, hn⟩ := h.shows
  obtain ⟨e', hmoved, rfl⟩ := hshows.exists_of_step hstep
  obtain ⟨d, -, -, -, -, -, -, -, -, rfl⟩ := Execution.exists_of_step_moved hmoved
  refine ⟨?_, fun j hj => ?_, h.program_eq, _, hshows.follow_moved hmoved, Nat.succ_le_succ hn⟩
  · rw [afterSteps, h.last_eq, hstep]
  · rcases Nat.lt_succ_iff_lt_or_eq.1 hj with hj | rfl
    · exact h.moved j hj
    · exact ⟨i, p, by rw [h.last_eq, hstep]⟩

/-- **Playing out is stepping until a step ends the program**, and there are fewer
steps before that one than blocks. -/
theorem Shows.exists_afterSteps (h : s.Shows e) :
    ∃ n < s.program.length, ∃ o,
      (∀ i < n, ∃ k p, (s.afterSteps i).step.1 = some (.moved k p)) ∧
      (s.afterSteps n).step.1 = some (.finished o) ∧
      s.playOut = (some o, s.afterSteps (n + 1)) := by
  have hgone : s.Gone 0 s :=
    ⟨rfl, fun _ hi => absurd hi (Nat.not_lt_zero _), rfl, e, h, Nat.zero_le _⟩
  obtain ⟨last, o, ⟨n, hlast⟩, hstep, hout⟩ :=
    playOut_induction (P := fun last => ∃ n, s.Gone n last)
      (fun ⟨n, hn⟩ hstep => ⟨n + 1, hn.next hstep⟩)
      (Option.isSome_of_eq_some h.running?_eq) ⟨0, hgone⟩
  obtain ⟨e', hshows, hn⟩ := hlast.shows
  have hlt := hshows.next_lt
  rw [hlast.program_eq] at hlt
  refine ⟨n, Nat.lt_of_le_of_lt hn hlt, o, hlast.moved, ?_, Prod.ext hout ?_⟩
  · rw [hlast.last_eq, hstep]
  · rw [afterSteps, hlast.last_eq, hstep]

/-- **A running program is in step with what is shown.**  In every session of a
game, the program is running exactly if there is an execution that is not over.
That execution then has the blocks of the program, of which there are some, and
the goal of the puzzle; it is where the character is shown and came along the path
that is shown; and its next move is one of the blocks, so the status line counts
from the first to the last of them.  So steps and playing out report something
exactly while the program is running, and playing out comes to an end: it is the
same as stepping up to the first step that ends the program. -/
theorem running_in_step (h : s.Reachable) :
    (s.phase = .running ↔ ∃ e, s.execution? = some e ∧ e.isFinished = false) ∧
    (s.phase = .running → ∃ e, s.execution? = some e ∧
      e.program = s.program.blocks ∧ e.program ≠ [] ∧ e.goal = s.puzzle.goal ∧
      e.position = s.character ∧ e.path = s.path ∧ s.currentStep < s.program.length ∧
      s.status = s!"Step {s.currentStep + 1}/{s.program.length}" ∧
      1 ≤ s.currentStep + 1 ∧ s.currentStep + 1 ≤ s.program.length) ∧
    (s.step.1.isSome ↔ s.phase = .running) ∧
    (s.playOut.1.isSome ↔ s.phase = .running) ∧
    (s.phase = .running → ∃ n < s.program.length, ∃ o,
      (∀ i < n, ∃ k p, (s.afterSteps i).step.1 = some (.moved k p)) ∧
      (s.afterSteps n).step.1 = some (.finished o) ∧
      s.playOut = (some o, s.afterSteps (n + 1))) := by
  rcases h.coherent.cases with ⟨hr, e, he⟩ | ⟨hr, hidle, hover⟩
  · have hlt : s.currentStep < s.program.length := by
      rw [he.currentStep_eq]
      exact he.next_lt
    have hstatus : s.status = s!"Step {s.currentStep + 1}/{s.program.length}" := by
      rw [status, hr]
    refine ⟨iff_of_true hr ⟨e, he.execution?_eq, he.isFinished_eq_false⟩, fun _ => ?_,
      iff_of_true ?_ hr, iff_of_true ?_ hr, fun _ => he.exists_afterSteps⟩
    · exact ⟨e, he.execution?_eq, he.program_eq, he.program_ne, he.goal_eq, he.position_eq,
        he.path_eq, hlt, hstatus, Nat.succ_pos _, hlt⟩
    · rw [step_of_running? he.running?_eq]
      rfl
    · rw [playOut_of_running? he.running?_eq]
      rfl
  · refine ⟨iff_of_false hr fun ⟨e, he, hunfinished⟩ => ?_, fun hrunning => absurd hrunning hr,
      iff_of_false ?_ hr, iff_of_false ?_ hr, fun hrunning => absurd hrunning hr⟩
    · rw [hover e he] at hunfinished
      cases hunfinished
    · rw [step_of_not_isRunning hidle]
      exact Bool.false_ne_true
    · rw [playOut_of_not_isRunning hidle]
      exact Bool.false_ne_true

/-- In a game with two blocks that was just started, the first of two steps is
next, and playing out takes one step or two. -/
theorem running_in_step_two_blocks :
    ∃ s : Session, s.Reachable ∧ s.phase = .running ∧ s.program.blocks = [.down, .right] ∧
      s.currentStep < s.program.length ∧ s.status = "Step 1/2" ∧
      s.step.1.isSome ∧ ∃ n < 2, ∃ o, s.playOut = (some o, s.afterSteps (n + 1)) := by
  obtain ⟨puzzle, hnew⟩ := @exists_reachable_ofPuzzle 5 4 (by decide) (by decide) "maze"
  let edited := ((ofPuzzle 5 4 "maze" puzzle).perform (.push .down)).2.perform (.push .right)
  let s := (edited.2.perform .play).2
  have hs : s.Reachable := .performed _ (.performed _ (.performed _ hnew))
  have hphase : s.phase = .running := rfl
  obtain ⟨-, hrunning, hstep, -, hplayOut⟩ := running_in_step hs
  obtain ⟨e, -, -, -, -, -, -, hlt, hstatus, -, -⟩ := hrunning hphase
  obtain ⟨n, hn, o, -, -, hout⟩ := hplayOut hphase
  have htext : s!"Step {0 + 1}/{2}" = "Step 1/2" := by decide
  exact ⟨s, hs, hphase, rfl, hlt, hstatus.trans htext, hstep.2 hphase, n, hn, o, hout⟩

end Session
end Labyrinth
