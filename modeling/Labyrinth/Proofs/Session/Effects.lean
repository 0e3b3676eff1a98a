/-
# What actions do to a session

Playing a program out is stepping it until a step says that the program is over
(`Session.playOut_induction`).  So the actions have eight kinds of effect between
them (`Session.Effect`), and what these preserve, every action preserves
(`Session.perform_preserves`) and every game (`Session.Reachable.invariant`).

An action that is refused has no effect (`Session.perform_refused`), and a running
program refuses all actions but those that go on with it or end it
(`Session.perform_of_isRunning`).
-/

import Labyrinth.Session.Action
import Labyrinth.Proofs.Execution.Stepping
import Labyrinth.Proofs.Replay

namespace Labyrinth

/-- The actions that a running program refuses. -/
def Action.isGuarded : Action → Bool
  | renew _ | push _ | remove _ | reorder _ _ | clear | undo | redo | play => true
  | step | playOut | cancel | rewind => false

namespace Session

variable {s s' : Session} {e e' : Execution} {o : Outcome} {i : Nat} {p : Position}

/-! ## Playing a program out -/

/-- An execution runs if the phase says so and it is there. -/
theorem running?_eq_some_iff : s.running? = some e ↔ s.isRunning ∧ s.execution? = some e := by
  unfold running?
  split <;> simp_all

/-- A step of a running session is one of its execution, which it follows. -/
theorem step_of_running? (h : s.running? = some e) :
    s.step = (some (e.step s.puzzle.maze).1, s.follow (e.step s.puzzle.maze).2) := by
  rw [step, h]

/-- A step of any other session does nothing. -/
theorem step_of_not_isRunning (h : s.isRunning = false) : s.step = (none, s) := by
  rw [step, running?, h, if_neg Bool.false_ne_true]

/-- Playing out is running the execution, which the session follows. -/
theorem playOut_of_running? (h : s.running? = some e) :
    s.playOut = (some (e.run s.puzzle.maze).1, s.follow (e.run s.puzzle.maze).2) := by
  rw [playOut, h]

/-- In any other session playing out does nothing. -/
theorem playOut_of_not_isRunning (h : s.isRunning = false) : s.playOut = (none, s) := by
  rw [playOut, running?, h, if_neg Bool.false_ne_true]

/-- An execution without result leaves the phase. -/
theorem phase_follow_of_none (h : e.result = none) : (s.follow e).phase = s.phase := by
  rw [follow, h]
  rfl

/-- An outcome sets the phase of its ending. -/
theorem phase_follow_of_some (h : e.result = some o) :
    (s.follow e).phase = o.ending.phase := by
  rw [follow, h]
  rfl

/-- A step that reports something is the step of an execution. -/
theorem exists_running?_of_step {report : Step} (h : s.step = (some report, s')) :
    ∃ e e', s.running? = some e ∧ e.step s.puzzle.maze = (report, e') ∧ s' = s.follow e' := by
  cases hr : s.running? with
  | none =>
    rw [step, hr] at h
    cases h
  | some e =>
    rw [step_of_running? hr] at h
    cases h
    exact ⟨e, _, rfl, rfl, rfl⟩

/-- A session is played out with a step that finishes. -/
theorem playOut_of_step_finished (h : s.step = (some (.finished o), s')) :
    s.playOut = (some o, s') := by
  obtain ⟨e, e', hr, hstep, rfl⟩ := exists_running?_of_step h
  rw [playOut_of_running? hr, Execution.run_of_step_finished hstep]

/-- After a step that does not end the program it is still running. -/
theorem running?_of_step_moved (h : s.step = (some (.moved i p), s')) :
    ∃ e e', s.running? = some e ∧ e.step s.puzzle.maze = (.moved i p, e') ∧ s' = s.follow e' ∧
      s'.phase = s.phase ∧ s'.running? = some e' := by
  obtain ⟨e, e', hr, hstep, rfl⟩ := exists_running?_of_step h
  obtain ⟨d, -, hresult, -, -, -, -, -, -, rfl⟩ := Execution.exists_of_step_moved hstep
  have hphase : (s.follow (e.advance d)).phase = s.phase := phase_follow_of_none hresult
  refine ⟨e, _, hr, hstep, rfl, hphase, running?_eq_some_iff.2 ⟨?_, rfl⟩⟩
  rw [isRunning, hphase]
  exact (running?_eq_some_iff.1 hr).1

/-- A step that moves leaves the rest to be played out. -/
theorem playOut_of_step_moved (h : s.step = (some (.moved i p), s')) :
    s.playOut = s'.playOut := by
  obtain ⟨e, e', hr, hstep, rfl, hphase, hr'⟩ := running?_of_step_moved h
  rw [playOut_of_running? hr, playOut_of_running? hr', Execution.run_of_step_moved hstep]
  -- both follow the same execution to its end, from sessions that differ only in what
  -- following overwrites, as the phase is still the same
  show _ = (some (e'.run s.puzzle.maze).1, _)
  rw [follow, follow, hphase]
  rfl

/-- **Playing out ends.**  It goes through sessions that steps lead to, so each has
what such steps preserve, and ends with the first step that ends the program. -/
theorem playOut_induction {P : Session → Prop}
    (hmoved : ∀ {s s' : Session} {i : Nat} {p : Position}, P s →
      s.step = (some (.moved i p), s') → P s')
    {s : Session} (hr : s.running?.isSome) (h : P s) :
    ∃ last o, P last ∧ last.step = (some (.finished o), s.playOut.2) ∧ s.playOut.1 = some o := by
  obtain ⟨e, he⟩ := Option.isSome_iff_exists.1 hr
  match hstep : s.step with
  | (none, s') =>
    rw [step_of_running? he] at hstep
    cases hstep
  | (some (.finished o), s') =>
    rw [playOut_of_step_finished hstep]
    exact ⟨s, o, h, hstep, rfl⟩
  | (some (.moved i p), s') =>
    obtain ⟨-, e', -, -, -, -, hr'⟩ := running?_of_step_moved hstep
    rw [playOut_of_step_moved hstep]
    exact playOut_induction hmoved (Option.isSome_of_eq_some hr') (hmoved h hstep)
termination_by s.remaining
decreasing_by exact remaining_of_step_moved hstep

/-! ## Effects -/

/-- The session at the moment when its program begins to run. -/
def started (s : Session) : Session :=
  { s.rewind with
    execution? := some (.start s.puzzle.start s.puzzle.goal s.program.blocks)
    phase := .running }

/-- All that an action can do to a session, playing out apart. -/
inductive Effect (s : Session) : Session → Prop
  /-- Nothing changes. -/
  | nothing : Effect s s
  /-- The program is changed. -/
  | edit (program : Program) : s.isRunning = false → Effect s { s with program }
  /-- The program is changed, and the character goes back to the start. -/
  | clear (program : Program) : s.isRunning = false → Effect s { s with program }.rewind
  /-- The puzzle of another seed takes the place of the puzzle. -/
  | renew (seed : String) (puzzle : Puzzle) : s.isRunning = false →
      Puzzle.generate s.width s.height seed = .ok puzzle →
      Effect s { s with puzzle, seed, program := .empty, execution? := none }.rewind
  /-- The program begins to run. -/
  | play : s.isRunning = false → s.program.isEmpty = false → Effect s s.started
  /-- The program goes on by one step. -/
  | step {e : Execution} : s.running? = some e → Effect s (s.follow (e.step s.puzzle.maze).2)
  /-- The execution is dropped. -/
  | cancel : Effect s s.cancel
  /-- The character goes back to the start. -/
  | rewind : Effect s s.rewind

/-- **A step has one of the effects**: it does nothing, or the session follows its
execution. -/
theorem effect_step (s : Session) : s.Effect s.step.2 := by
  cases hr : s.running? with
  | none =>
    rw [step, hr]
    exact .nothing
  | some e =>
    rw [step_of_running? hr]
    exact .step hr

/-- What every effect preserves, playing out preserves. -/
theorem playOut_preserves {P : Session → Prop}
    (heffect : ∀ {s s' : Session}, s.Effect s' → P s → P s') (h : P s) : P s.playOut.2 := by
  cases hr : s.running? with
  | none =>
    rw [playOut, hr]
    exact h
  | some e =>
    have hmoved : ∀ {s s' : Session} {i : Nat} {p : Position}, P s →
        s.step = (some (.moved i p), s') → P s' := by
      intro s s' i p hs hstep
      have hnext := heffect s.effect_step hs
      rw [hstep] at hnext
      exact hnext
    obtain ⟨last, o, hlast, hstep, -⟩ :=
      playOut_induction hmoved (Option.isSome_of_eq_some hr) h
    have hnext := heffect last.effect_step hlast
    rw [hstep] at hnext
    exact hnext

/-- A guarded action of a running session is refused. -/
theorem whenIdle_of_isRunning {α : Type} {result : Except SessionError α}
    (h : s.isRunning = true) : s.whenIdle result = .error .running := by
  rw [whenIdle, if_pos h]

/-- In an idle session it is done. -/
theorem whenIdle_of_not_isRunning {α : Type} {result : Except SessionError α}
    (h : s.isRunning = false) : s.whenIdle result = result := by
  rw [whenIdle, h, if_neg Bool.false_ne_true]

/-! ## Actions -/

/-- **A running program refuses the guarded actions.** -/
theorem perform_of_isRunning (h : s.isRunning = true) {a : Action} (ha : a.isGuarded) :
    s.perform a = (.refused .running, s) := by
  cases a with
  | renew | push | remove | reorder | clear | undo | redo | play =>
    simp only [perform, renew, push, remove, reorder, clear, undo, redo, play,
      whenIdle_of_isRunning h, settle]
  | step | playOut | cancel | rewind => cases ha

/-- A refused action leaves the session as it was. -/
theorem perform_refused {a : Action} {error : SessionError}
    (h : (s.perform a).1 = .refused error) : (s.perform a).2 = s := by
  cases a with
  | renew | push | remove | reorder | clear | undo | redo | play =>
    simp only [perform, settle] at h ⊢
    split
    · rename_i hok
      rw [hok] at h
      cases h
    · rfl
  | step | playOut | cancel | rewind => cases h

/-- An idle session with a program can be played. -/
theorem play_eq_started (hidle : s.isRunning = false) (hblocks : s.program.isEmpty = false) :
    s.play = .ok s.started := by
  rw [play, whenIdle_of_not_isRunning hidle, hblocks, if_neg Bool.false_ne_true]
  rfl

/-- So the action that plays it starts it. -/
theorem perform_play (hidle : s.isRunning = false) (hblocks : s.program.isEmpty = false) :
    s.perform .play = (.done, s.started) := by
  rw [perform, play_eq_started hidle hblocks]
  rfl

/-- **Every action but playing out has one of the effects.** -/
theorem effect_perform (s : Session) (a : Action) (ha : a ≠ .playOut) :
    s.Effect (s.perform a).2 := by
  cases hidle : s.isRunning with
  | true =>
    cases a with
    | renew | push | remove | reorder | clear | undo | redo | play =>
      rw [perform_of_isRunning hidle rfl]
      exact .nothing
    | step => exact s.effect_step
    | playOut => exact absurd rfl ha
    | cancel => exact .cancel
    | rewind => exact .rewind
  | false =>
    cases a with
    | renew seed =>
      rw [perform, renew, whenIdle_of_not_isRunning hidle]
      cases hpuzzle : Puzzle.generate s.width s.height seed with
      | ok puzzle => exact .renew seed puzzle hidle hpuzzle
      | error => exact .nothing
    | push block =>
      rw [perform, push, whenIdle_of_not_isRunning hidle]
      exact .edit _ hidle
    | remove index =>
      rw [perform, remove, whenIdle_of_not_isRunning hidle]
      cases s.program.remove? index with
      | some removed => exact .edit _ hidle
      | none => exact .nothing
    | reorder source target =>
      rw [perform, reorder, whenIdle_of_not_isRunning hidle]
      cases s.program.reorder? source target with
      | some program => exact .edit _ hidle
      | none => exact .nothing
    | clear =>
      rw [perform, clear, whenIdle_of_not_isRunning hidle]
      exact .clear _ hidle
    | undo =>
      rw [perform, undo, whenIdle_of_not_isRunning hidle]
      exact .edit _ hidle
    | redo =>
      rw [perform, redo, whenIdle_of_not_isRunning hidle]
      exact .edit _ hidle
    | play =>
      rw [perform, play, whenIdle_of_not_isRunning hidle]
      cases hempty : s.program.isEmpty with
      | true => exact .nothing
      | false => exact .play hidle hempty
    | step => exact s.effect_step
    | playOut => exact absurd rfl ha
    | cancel => exact .cancel
    | rewind => exact .rewind

/-- **What every effect preserves, every action preserves.** -/
theorem perform_preserves {P : Session → Prop}
    (heffect : ∀ {s s' : Session}, s.Effect s' → P s → P s') (h : P s) (a : Action) :
    P (s.perform a).2 := by
  by_cases ha : a = .playOut
  · rw [ha]
    exact playOut_preserves heffect h
  · exact heffect (s.effect_perform a ha) h

/-- **What every effect preserves, a list of actions preserves.** -/
theorem perform_replay_preserves {P : Session → Prop}
    (heffect : ∀ {s s' : Session}, s.Effect s' → P s → P s') (h : P s) (actions : List Action) :
    P (replay perform s actions).2 :=
  replay_preserves perform (P := P) (fun _ a hs => perform_preserves heffect hs a) h actions

/-! ## Games -/

/-- A session is created with the puzzle of its sides and its seed. -/
theorem create_eq_ok_iff {width height : Nat} {seed : String} :
    create width height seed = .ok s ↔
      ∃ puzzle, Puzzle.generate width height seed = .ok puzzle ∧
        s = ofPuzzle width height seed puzzle := by
  rw [create]
  cases Puzzle.generate width height seed with
  | ok puzzle =>
    simp only [Except.ok.injEq, exists_eq_left']
    exact eq_comm
  | error =>
    simp only [reduceCtorEq, false_and, exists_false]

/-- What can be decided of the session that is created holds of it. -/
theorem exists_create_of_any {P : Session → Prop} [DecidablePred P] {width height : Nat}
    {seed : String} (h : (create width height seed).toOption.any (fun s => P s) = true) :
    ∃ s, create width height seed = .ok s ∧ P s := by
  cases hcreate : create width height seed with
  | ok s =>
    rw [hcreate, Except.toOption, Option.any_some, decide_eq_true_iff] at h
    exact ⟨s, rfl, h⟩
  | error =>
    rw [hcreate] at h
    cases h

/-- The sessions that games go through: a new one, and after each of them the one
that an action leaves, refused or not. -/
inductive Reachable : Session → Prop
  | created {width height : Nat} {seed : String} {s : Session} :
      create width height seed = .ok s → Reachable s
  | performed {s : Session} (a : Action) : Reachable s → Reachable (s.perform a).2

/-- Actions lead from a reachable session to a reachable one. -/
theorem Reachable.replay (h : s.Reachable) (actions : List Action) :
    (Labyrinth.replay perform s actions).2.Reachable :=
  replay_preserves perform (fun _ a hs => .performed a hs) h actions

/-- **What new sessions have and every effect preserves, every session of a game
has.** -/
theorem Reachable.invariant {P : Session → Prop}
    (hnew : ∀ {width height : Nat} {seed : String} {puzzle : Puzzle},
      Puzzle.generate width height seed = .ok puzzle → P (ofPuzzle width height seed puzzle))
    (heffect : ∀ {s s' : Session}, s.Effect s' → P s → P s') (h : s.Reachable) : P s := by
  induction h with
  | created hs =>
    obtain ⟨puzzle, hpuzzle, rfl⟩ := create_eq_ok_iff.1 hs
    exact hnew hpuzzle
  | performed a _ ih => exact perform_preserves heffect ih a

end Session

end Labyrinth
