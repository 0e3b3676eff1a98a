/-
# A renewed session is a new one

A renewal assigns the puzzle, the seed, the program and the execution, and leaves
the rest to the way back to the start.  That way drops an execution only while the
program runs, and a renewal is refused then; but there is no execution left to
drop.  So nothing is left of what was before (`Session.perform_renew`), and as no
action changes the sides (`Session.sides_replay`), the session is the one that is
created for the sides of the game and the new seed.  From there on both give the
same answers (`Session.renewed_is_created`).
-/

import Labyrinth.Proofs.Session.Refusal

namespace Labyrinth
namespace Session

variable {s s' s₀ : Session} {width height : Nat} {seed first : String} {puzzle : Puzzle}

/-! ## The sides of a game -/

/-- No effect changes the sides that were asked for. -/
theorem Effect.sides_eq (h : s.Effect s') : s'.width = s.width ∧ s'.height = s.height := by
  cases h with
  | nothing | edit | clear | renew | play | step | cancel | rewind => exact ⟨rfl, rfl⟩

/-- **No action changes the sides**, so they are those that the game began with. -/
theorem sides_replay (s : Session) (actions : List Action) :
    (replay perform s actions).2.width = s.width ∧
      (replay perform s actions).2.height = s.height := by
  refine perform_replay_preserves (P := fun s' => s'.width = s.width ∧ s'.height = s.height)
    (fun heffect h => ?_) ⟨rfl, rfl⟩ actions
  obtain ⟨hw, hh⟩ := heffect.sides_eq
  exact ⟨hw.trans h.1, hh.trans h.2⟩

/-! ## Renewal -/

/-- **A renewal leaves the session that begins with the new puzzle**, whatever the
session held. -/
theorem perform_renew (hidle : s.isRunning = false)
    (hpuzzle : Puzzle.generate s.width s.height seed = .ok puzzle) :
    s.perform (.renew seed) = (.done, ofPuzzle s.width s.height seed puzzle) := by
  rw [perform, renew, whenIdle_of_not_isRunning hidle, hpuzzle]
  -- the execution is gone before the way back asks whether to drop it
  show (Response.done, Session.rewind _) = _
  rw [rewind, ite_self]
  rfl

/-- **A renewed session is a new one.**  Take any game, a session created for some
sides and any actions after that, that has come to a session which is not running.
Then a renewal is done for every seed, in place or not, and it leaves the very
session that is created for the same sides and this seed: with its puzzle, without
blocks and without edits to undo or redo, idle, the character and its path at the
start, and no execution.  So the game before is forgotten: whatever actions come
next are answered as in the new game and lead to the same session. -/
theorem renewed_is_created (hnew : create width height first = .ok s₀) (before : List Action)
    (hidle : (replay perform s₀ before).2.phase ≠ .running) (seed : String) :
    ∃ fresh, create width height seed = .ok fresh ∧
      (replay perform s₀ before).2.perform (.renew seed) = (.done, fresh) ∧
      (replay perform s₀ before).2.carryOut (.renew seed) = (.done, fresh) ∧
      (Puzzle.generate width height seed = .ok fresh.puzzle ∧ fresh.seed = seed ∧
        fresh.program = ⟨[], [], []⟩ ∧ fresh.phase = .idle ∧
        fresh.character = fresh.puzzle.start ∧ fresh.path = #[fresh.puzzle.start] ∧
        fresh.execution? = none) ∧
      ∀ after : List Action,
        replay perform s₀ (before ++ .renew seed :: after) =
          ((replay perform s₀ before).1 ++ .done :: (replay perform fresh after).1,
            (replay perform fresh after).2) := by
  have hsides : s₀.width = width ∧ s₀.height = height := by
    obtain ⟨opening, -, rfl⟩ := create_eq_ok_iff.1 hnew
    exact ⟨rfl, rfl⟩
  obtain ⟨hw, hh⟩ := sides_replay s₀ before
  have hreachable := (Reachable.created hnew).replay before
  obtain ⟨puzzle, hpuzzle⟩ := hreachable.exists_generate seed
  have hperform := perform_renew (decide_eq_false hidle) hpuzzle
  rw [hw, hh, hsides.1, hsides.2] at hpuzzle hperform
  refine ⟨_, create_eq_ok_iff.2 ⟨puzzle, hpuzzle, rfl⟩, hperform, ?_,
    ⟨hpuzzle, rfl, rfl, rfl, rfl, rfl, rfl⟩, fun after => ?_⟩
  · rw [carryOut_eq_perform, hperform]
  · rw [replay_append, replay_cons, hperform]

/-- A game that was solved, with an edit to redo and the execution still there, is
renewed to the game that another seed begins. -/
theorem renewed_is_created_five_by_four :
    ∃ s₀ s fresh : Session, create 5 4 "maze" = .ok s₀ ∧
      s = (replay perform s₀ [.push .down, .push .down, .push .right, .push .right, .push .up,
        .push .up, .undo, .play, .playOut]).2 ∧
      s.phase = .solved ∧ s.execution?.isSome ∧ s.path.size = 6 ∧ s.program.redoList.length = 1 ∧
      create 5 4 "other" = .ok fresh ∧ s.perform (.renew "other") = (.done, fresh) := by
  obtain ⟨s₀, hcreate, hphase, hheld⟩ := exists_create_of_any (P := fun s₀ =>
    let s := (replay perform s₀ [.push .down, .push .down, .push .right, .push .right, .push .up,
      .push .up, .undo, .play, .playOut]).2
    s.phase = .solved ∧ s.execution?.isSome ∧ s.path.size = 6 ∧ s.program.redoList.length = 1)
    (by decide +kernel : (create 5 4 "maze").toOption.any _ = true)
  obtain ⟨hexecution, hpath, hredo⟩ := hheld
  obtain ⟨fresh, hfresh, hrenew, -⟩ := renewed_is_created hcreate _
    (by rw [hphase]; rintro ⟨⟩) "other"
  exact ⟨s₀, _, fresh, hcreate, rfl, hphase, hexecution, hpath, hredo, hfresh, hrenew⟩

end Session
end Labyrinth
