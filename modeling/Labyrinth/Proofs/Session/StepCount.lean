/-
# How many moves the current step counts

The current step is read off the execution, and the path is a field of its own.
While the program runs, and after it has ended, the current step is the number of
moves that the path shows (`Session.CountsMoves`).  Going back to the start makes
the path short again, but it drops only an execution that is in progress.  One that
is over stays, and its steps are still counted (`Session.LeftBehind`), until it is
dropped by a cancellation or a renewal, or replaced by playing again.  In a game
this is the only way in which the current step and the path come apart
(`Session.countsMoves_iff`).
-/

import Labyrinth.Proofs.Session.Renewal

namespace Labyrinth

namespace Action

/-- The actions after which no execution of before is left. -/
def restarts : Action → Bool
  | renew _ | play | cancel => true
  | push _ | remove _ | reorder _ _ | clear | undo | redo | step | playOut | rewind => false

/-- The actions that bring the character back to the start and spare an execution
that is over. -/
def rewinds : Action → Bool
  | clear | rewind => true
  | renew _ | push _ | remove _ | reorder _ _ | undo | redo | play | step | playOut | cancel =>
    false

end Action

namespace Session

/-- The path shows as many moves as the current step counts. -/
def CountsMoves (s : Session) : Prop := s.path.size = s.currentStep + 1

/-- **The character has left its execution behind:** it went back to the start when
the execution was over and had made moves, and nothing has replaced the execution
since. -/
inductive LeftBehind : Session → Prop
  /-- The character goes back. -/
  | rewound {s : Session} {a : Action} : s.Reachable → s.isRunning = false →
      s.currentStep ≠ 0 → a.rewinds = true → LeftBehind (s.perform a).2
  /-- The game goes on with the execution that was left behind. -/
  | kept {s : Session} {a : Action} : LeftBehind s →
      ¬(a.restarts = true ∧ (s.perform a).1 = .done) → LeftBehind (s.perform a).2

variable {s : Session} {a : Action}

/-! ## What actions do to the count -/

/-- Putting back sets the count to zero in a running session only: there the execution goes
away. -/
theorem currentStep_rewind (s : Session) :
    s.rewind.currentStep = if s.isRunning then 0 else s.currentStep := by
  rw [currentStep, rewind]
  split <;> rfl

/-- A guarded action is done only while the program is not running. -/
theorem not_isRunning_of_done (ha : a.isGuarded = true) (hdone : (s.perform a).1 = .done) :
    s.isRunning = false := by
  rw [← Bool.not_eq_true]
  intro hrunning
  rw [perform_of_isRunning hrunning ha] at hdone
  cases hdone

/-- **A restart counts from zero**, and shows no move. -/
theorem currentStep_of_restarts (ha : a.restarts = true) (hdone : (s.perform a).1 = .done) :
    (s.perform a).2.currentStep = 0 ∧ (s.perform a).2.path.size = 1 := by
  cases a with
  | renew seed =>
    have hidle := not_isRunning_of_done rfl hdone
    cases hpuzzle : Puzzle.generate s.width s.height seed with
    | ok puzzle =>
      rw [perform_renew hidle hpuzzle]
      exact ⟨rfl, rfl⟩
    | error =>
      rw [perform, renew, whenIdle_of_not_isRunning hidle, hpuzzle] at hdone
      cases hdone
  | play =>
    have hidle := not_isRunning_of_done rfl hdone
    cases hempty : s.program.isEmpty with
    | true =>
      rw [perform, play, whenIdle_of_not_isRunning hidle, hempty] at hdone
      cases hdone
    | false =>
      rw [perform_play hidle hempty]
      exact ⟨rfl, rfl⟩
  | cancel =>
    rw [perform, cancel, currentStep_rewind]
    exact ⟨ite_self 0, rfl⟩
  | push | remove | reorder | clear | undo | redo | step | playOut | rewind => cases ha

/-- **Going back to the start counts on**, unless the program was running, and shows
no move. -/
theorem currentStep_of_rewinds (ha : a.rewinds = true) (hdone : (s.perform a).1 = .done) :
    (s.perform a).2.currentStep = (if s.isRunning then 0 else s.currentStep) ∧
      (s.perform a).2.path.size = 1 ∧ (s.perform a).2.isRunning = false := by
  cases a with
  | clear =>
    have hidle := not_isRunning_of_done rfl hdone
    rw [perform, clear, whenIdle_of_not_isRunning hidle]
    exact ⟨currentStep_rewind { s with program := s.program.clear }, rfl, rfl⟩
  | rewind => exact ⟨s.currentStep_rewind, rfl, rfl⟩
  | renew | push | remove | reorder | undo | redo | play | step | playOut | cancel => cases ha

/-- An idle session refuses no action that puts it back. -/
theorem done_of_rewinds (ha : a.rewinds = true) (hidle : s.isRunning = false) :
    (s.perform a).1 = .done := by
  cases a with
  | clear =>
    rw [perform, clear, whenIdle_of_not_isRunning hidle]
    rfl
  | rewind => rfl
  | renew | push | remove | reorder | undo | redo | play | step | playOut | cancel => cases ha

/-- **Nothing else touches the count or the path** of a session that is not
running. -/
theorem perform_of_idle (hidle : s.isRunning = false)
    (hrestart : ¬(a.restarts = true ∧ (s.perform a).1 = .done)) (ha : a.rewinds = false) :
    (s.perform a).2.currentStep = s.currentStep ∧ (s.perform a).2.path = s.path ∧
      (s.perform a).2.isRunning = false := by
  cases a with
  | renew seed =>
    cases hpuzzle : Puzzle.generate s.width s.height seed with
    | ok puzzle => exact absurd ⟨rfl, by rw [perform_renew hidle hpuzzle]⟩ hrestart
    | error =>
      rw [perform, renew, whenIdle_of_not_isRunning hidle, hpuzzle]
      exact ⟨rfl, rfl, hidle⟩
  | play =>
    cases hempty : s.program.isEmpty with
    | true =>
      rw [perform, play, whenIdle_of_not_isRunning hidle, hempty]
      exact ⟨rfl, rfl, hidle⟩
    | false => exact absurd ⟨rfl, by rw [perform_play hidle hempty]⟩ hrestart
  | cancel => exact absurd ⟨rfl, rfl⟩ hrestart
  | push | undo | redo =>
    simp only [perform, push, undo, redo, whenIdle_of_not_isRunning hidle]
    exact ⟨rfl, rfl, hidle⟩
  | remove index =>
    rw [perform, remove, whenIdle_of_not_isRunning hidle]
    cases s.program.remove? index <;> exact ⟨rfl, rfl, hidle⟩
  | reorder source target =>
    rw [perform, reorder, whenIdle_of_not_isRunning hidle]
    cases s.program.reorder? source target <;> exact ⟨rfl, rfl, hidle⟩
  | step =>
    rw [perform, step_of_not_isRunning hidle]
    exact ⟨rfl, rfl, hidle⟩
  | playOut =>
    rw [perform, playOut_of_not_isRunning hidle]
    exact ⟨rfl, rfl, hidle⟩
  | clear | rewind => cases ha

/-! ## While the program runs -/

/-- A step makes the path longer by the move that it counts. -/
theorem CountsMoves.step (h : s.CountsMoves) (hcoherent : s.Coherent) :
    s.step.2.CountsMoves := by
  cases hr : s.running? with
  | none =>
    rw [Session.step, hr]
    exact h
  | some e =>
    have hshows := hcoherent.shows hr
    have hpath : e.path.size = e.next + 1 := by
      rw [hshows.path_eq, ← hshows.currentStep_eq]
      exact h
    rw [step_of_running? hr]
    exact Execution.size_path_step s.puzzle.maze hpath

/-- Playing out keeps the count. -/
theorem CountsMoves.playOut (h : s.CountsMoves) (hcoherent : s.Coherent) :
    s.playOut.2.CountsMoves := by
  cases hr : s.running? with
  | none =>
    rw [Session.playOut, hr]
    exact h
  | some e =>
    have hmoved : ∀ {s s' : Session} {i : Nat} {p : Position}, s.CountsMoves ∧ s.Coherent →
        s.step = (some (.moved i p), s') → s'.CountsMoves ∧ s'.Coherent := by
      intro s s' i p hs hstep
      have hnext : s.step.2 = s' := congrArg Prod.snd hstep
      rw [← hnext]
      exact ⟨hs.1.step hs.2, Coherent.effect s.effect_step hs.2⟩
    -- the step that ends the program is one more step
    obtain ⟨last, o, hlast, hstep, -⟩ :=
      playOut_induction hmoved (Option.isSome_of_eq_some hr) ⟨h, hcoherent⟩
    have hcounts := hlast.1.step hlast.2
    rw [hstep] at hcounts
    exact hcounts

/-- **No action brings the count of a running program out of step.** -/
theorem CountsMoves.perform_of_isRunning (h : s.CountsMoves) (hcoherent : s.Coherent)
    (hrunning : s.isRunning = true) (a : Action) : (s.perform a).2.CountsMoves := by
  cases a with
  | renew | push | remove | reorder | clear | undo | redo | play =>
    rw [Session.perform_of_isRunning hrunning rfl]
    exact h
  | step => exact h.step hcoherent
  | playOut => exact h.playOut hcoherent
  | cancel =>
    obtain ⟨hstep, hpath⟩ := @currentStep_of_restarts s .cancel rfl rfl
    rw [CountsMoves, hstep, hpath]
  | rewind =>
    obtain ⟨hstep, hpath, -⟩ := @currentStep_of_rewinds s .rewind rfl rfl
    rw [CountsMoves, hstep, hpath, hrunning, if_pos rfl]

/-! ## All through a game -/

/-- An execution that was left behind counts moves that the path does not show. -/
theorem LeftBehind.apart (h : s.LeftBehind) :
    s.currentStep ≠ 0 ∧ s.path.size = 1 ∧ s.isRunning = false := by
  induction h with
  | @rewound s a _ hidle hmoves ha =>
    obtain ⟨hstep, hpath, hidle'⟩ := currentStep_of_rewinds ha (done_of_rewinds ha hidle)
    rw [hstep, hidle]
    exact ⟨hmoves, hpath, hidle'⟩
  | @kept s a _ hrestart ih =>
    obtain ⟨hmoves, hpath, hidle⟩ := ih
    cases ha : a.rewinds with
    | true =>
      obtain ⟨hstep, hpath', hidle'⟩ := currentStep_of_rewinds ha (done_of_rewinds ha hidle)
      rw [hstep, hidle]
      exact ⟨hmoves, hpath', hidle'⟩
    | false =>
      obtain ⟨hstep, hpath', hidle'⟩ := perform_of_idle hidle hrestart ha
      rw [hstep, hpath']
      exact ⟨hmoves, hpath, hidle'⟩

/-- **In a game the path shows the moves that are counted, or the execution was left
behind.** -/
theorem Reachable.countsMoves_or_leftBehind (h : s.Reachable) :
    s.CountsMoves ∨ s.LeftBehind := by
  induction h with
  | created hs =>
    obtain ⟨puzzle, -, rfl⟩ := create_eq_ok_iff.1 hs
    exact Or.inl rfl
  | @performed s a hs ih =>
    by_cases hrestart : a.restarts = true ∧ (s.perform a).1 = .done
    · obtain ⟨hstep, hpath⟩ := currentStep_of_restarts hrestart.1 hrestart.2
      rw [CountsMoves, hstep, hpath]
      exact Or.inl rfl
    · rcases ih with hcounts | hbehind
      · cases hidle : s.isRunning with
        | true => exact Or.inl (hcounts.perform_of_isRunning hs.coherent hidle a)
        | false =>
          cases ha : a.rewinds with
          | true =>
            -- an execution that made no move counts none, so it is not in the way
            by_cases hmoves : s.currentStep = 0
            · obtain ⟨hstep, hpath, -⟩ := currentStep_of_rewinds ha (done_of_rewinds ha hidle)
              rw [CountsMoves, hstep, hpath, hidle, hmoves]
              exact Or.inl rfl
            · exact Or.inr (.rewound hs hidle hmoves ha)
          | false =>
            obtain ⟨hstep, hpath, -⟩ := perform_of_idle hidle hrestart ha
            rw [CountsMoves, hstep, hpath]
            exact Or.inl hcounts
      · exact Or.inr (.kept hbehind hrestart)

/-- **When the current step counts the moves on display.**  In a session of a game
the path shows as many moves as the current step counts, unless the execution was
left behind; then the program is not running and the path is only the start, but
the steps that are counted are still those of the execution.  Restarts that are
done set the current step to zero, whatever the session was.  Going back to the
start, with or without the blocks, sets it to zero only if the program was running,
and leaves it as it was otherwise. -/
theorem countsMoves_iff (h : s.Reachable) :
    (s.path.size = s.currentStep + 1 ↔ ¬s.LeftBehind) ∧
    (s.LeftBehind → s.currentStep ≠ 0 ∧ s.path.size = 1 ∧ s.phase ≠ .running) ∧
    (∀ a : Action, a.restarts → (s.perform a).1 = .done → (s.perform a).2.currentStep = 0) ∧
    (∀ a : Action, a.rewinds → (s.perform a).1 = .done →
      (s.perform a).2.currentStep = if s.phase = .running then 0 else s.currentStep) := by
  refine ⟨⟨fun hcounts hbehind => ?_, fun hbehind => ?_⟩, fun hbehind => ?_,
    fun a ha hdone => (currentStep_of_restarts ha hdone).1, fun a ha hdone => ?_⟩
  · obtain ⟨hmoves, hpath, -⟩ := hbehind.apart
    omega
  · exact h.countsMoves_or_leftBehind.resolve_right hbehind
  · obtain ⟨hmoves, hpath, hidle⟩ := hbehind.apart
    exact ⟨hmoves, hpath, of_decide_eq_false hidle⟩
  · rw [(currentStep_of_rewinds ha hdone).1, isRunning]
    simp only [decide_eq_true_eq]

/-- One block is played, and the character goes back to the start.  The step that
was made still counts, until the execution is dropped. -/
theorem countsMoves_iff_one_block :
    ∃ s : Session, s.Reachable ∧ s.LeftBehind ∧ s.path.size ≠ s.currentStep + 1 ∧
      s.currentStep = 1 ∧ (s.perform .cancel).2.currentStep = 0 := by
  obtain ⟨s₀, hcreate, hphase, hstep⟩ := exists_create_of_any (P := fun s₀ =>
    let s := (replay perform s₀ [.push .down, .play, .playOut]).2
    s.phase = .idle ∧ s.currentStep = 1)
    (by decide +kernel : (create 5 4 "maze").toOption.any _ = true)
  have hs := (Reachable.created hcreate).replay [.push .down, .play, .playOut]
  have hidle : (replay perform s₀ [.push .down, .play, .playOut]).2.phase ≠ .running := by
    rw [hphase]
    rintro ⟨⟩
  have hmoves : (replay perform s₀ [.push .down, .play, .playOut]).2.currentStep ≠ 0 := by
    rw [hstep]
    exact Nat.one_ne_zero
  have hbehind := LeftBehind.rewound (a := .rewind) hs (decide_eq_false hidle) hmoves rfl
  obtain ⟨-, -, -, hrewinds⟩ := countsMoves_iff hs
  obtain ⟨hiff, -, hrestarts, -⟩ := countsMoves_iff (.performed .rewind hs)
  have hcount := hrewinds .rewind rfl rfl
  rw [if_neg hidle, hstep] at hcount
  exact ⟨_, .performed .rewind hs, hbehind, fun hcounts => hiff.1 hcounts hbehind, hcount,
    hrestarts .cancel rfl rfl⟩

/-- So the current step is not always the number of moves that the path shows: it is
one, and the path shows none, when a block was played and the character was sent
back or the blocks were cleared. -/
theorem currentStep_ne_after_rewinds :
    ∃ s₀ : Session, create 5 4 "maze" = .ok s₀ ∧
      ∀ a ∈ [Action.rewind, Action.clear],
        let s := (replay perform s₀ [.push .down, .play, .playOut, a]).2
        s.Reachable ∧ s.currentStep = 1 ∧ s.path.size - 1 = 0 := by
  obtain ⟨s₀, hcreate, hplayed⟩ := exists_create_of_any (P := fun s₀ =>
    ∀ a ∈ [Action.rewind, Action.clear],
      let s := (replay perform s₀ [.push .down, .play, .playOut, a]).2
      s.currentStep = 1 ∧ s.path.size - 1 = 0)
    (by decide +kernel : (create 5 4 "maze").toOption.any _ = true)
  exact ⟨s₀, hcreate, fun a ha => ⟨(Reachable.created hcreate).replay _, hplayed a ha⟩⟩

end Session
end Labyrinth
