/-
# Actions

All that a player can do in a session, as data: a game is a list of actions, and
every session of a game comes from the one before it by `Session.perform`.
-/

import Labyrinth.Session

namespace Labyrinth

/-- One thing that a player does. -/
inductive Action
  | renew (seed : String)
  | push (block : Direction)
  | remove (index : Nat)
  | reorder (source target : Nat)
  | clear
  | undo
  | redo
  | play
  | step
  | playOut
  | cancel
  | rewind
deriving DecidableEq, Repr

/-- What a session answers. -/
inductive Response
  /-- The action was done. -/
  | done
  /-- The block that was taken out. -/
  | removed (block : Direction)
  /-- What the execution reports, if the program was running. -/
  | stepped (step? : Option Step)
  /-- How the program ended, if it was running. -/
  | ended (outcome? : Option Outcome)
  /-- The action was refused. -/
  | refused (error : SessionError)
deriving DecidableEq, Repr

namespace Session

/-- The answer and the session that an operation leaves: its own result, or the
session as it was. -/
def settle {α : Type} (s : Session) (result : Except SessionError α)
    (answer : α → Response × Session) : Response × Session :=
  match result with
  | .ok a => answer a
  | .error e => (.refused e, s)

/-- Performs an action. -/
def perform (s : Session) : Action → Response × Session
  | .renew seed => s.settle (s.renew seed) (.done, ·)
  | .push block => s.settle (s.push block) (.done, ·)
  | .remove index =>
    s.settle (s.remove index) fun (block, s) => (.removed block, s)
  | .reorder source target => s.settle (s.reorder source target) (.done, ·)
  | .clear => s.settle s.clear (.done, ·)
  | .undo => s.settle s.undo (.done, ·)
  | .redo => s.settle s.redo (.done, ·)
  | .play => s.settle s.play (.done, ·)
  | .step => let (step?, s) := s.step; (.stepped step?, s)
  | .playOut => let (outcome?, s) := s.playOut; (.ended outcome?, s)
  | .cancel => (.done, s.cancel)
  | .rewind => (.done, s.rewind)

end Session

end Labyrinth
