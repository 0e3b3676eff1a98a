/-
# Sessions changed in place

`Session.perform` makes a new session of an old one, so an action that it
refuses has nothing to leave behind.  A session that is changed in place, one
assignment after the other, could be left half changed if an error is thrown
between two of them.  Here actions are carried out in that way: what was
assigned stays assigned, also when an error follows (`Session.InPlace.action`).
The answers and the sessions are those of `perform` all the same
(`Session.carryOut_eq_perform`), so no error is ever thrown too late.

A session assigns its own fields and lets its program change in place
(`Program.InPlace`).
-/

import Labyrinth.Proofs.Program.InPlace
import Labyrinth.Proofs.Session.Effects

namespace Labyrinth

namespace Session
namespace InPlace

/-- Throws an error if the program is running. -/
def ensureIdle : EStateM SessionError Session Unit := do
  if (← get).isRunning then
    throw .running

/-- Lets the program change. -/
def onProgram {α : Type} (change : StateM Program α) : EStateM SessionError Session α := do
  let (answer, program) := change.run (← get).program
  modify fun s => { s with program }
  return answer

/-- Puts the character back to the start and drops an execution in progress. -/
def rewind : EStateM SessionError Session Unit := do
  if (← get).isRunning then
    modify fun s => { s with execution? := none }
  modify fun s => { s with phase := .idle }
  modify fun s => { s with character := s.puzzle.start }
  modify fun s => { s with path := #[s.puzzle.start] }

/-- What an action does once it is let through. -/
def body : Action → EStateM SessionError Session Response
  | .renew seed => do
    let s ← get
    match Puzzle.generate s.width s.height seed with
    | .error error => throw (.noPuzzle error)
    | .ok puzzle =>
      modify fun s => { s with puzzle }
      modify fun s => { s with seed }
      modify fun s => { s with program := .empty }
      modify fun s => { s with execution? := none }
      rewind
      return .done
  | .push block => do
    onProgram (Program.InPlace.push block)
    return .done
  | .remove index => do
    match ← onProgram (Program.InPlace.remove index) with
    | some block => return .removed block
    | none => throw (.noBlockAt index)
  | .reorder source target => do
    if ← onProgram (Program.InPlace.reorder source target) then
      return .done
    else
      throw (.noBlockAt (max source target))
  | .clear => do
    onProgram Program.InPlace.clear
    rewind
    return .done
  | .undo => do
    onProgram (modify Program.undo)
    return .done
  | .redo => do
    onProgram (modify Program.redo)
    return .done
  | .play => do
    if (← get).program.isEmpty then
      throw .nothingToRun
    rewind
    modify fun s =>
      { s with execution? := some (.start s.puzzle.start s.puzzle.goal s.program.blocks) }
    modify fun s => { s with phase := .running }
    return .done
  | .step => modifyGet fun s => (.stepped s.step.1, s.step.2)
  | .playOut => modifyGet fun s => (.ended s.playOut.1, s.playOut.2)
  | .cancel => do
    modify fun s => { s with execution? := none }
    rewind
    return .done
  | .rewind => do
    rewind
    return .done

/-- Carries out an action, unless a running program refuses it. -/
def action (a : Action) : EStateM SessionError Session Response := do
  if a.isGuarded then
    ensureIdle
  body a

variable {s : Session} {a : Action}

/-- Putting back in place is putting back. -/
theorem rewind_eq_modify : rewind = modify Session.rewind := by
  refine funext fun s => ?_
  show rewind.run s = .ok () s.rewind
  simp only [rewind, EStateM.run_bind, EStateM.run_get, Session.rewind]
  cases s.isRunning <;> rfl

/-- A guarded action stops before its first assignment if the session runs. -/
theorem run_action_of_isRunning (h : s.isRunning = true) (ha : a.isGuarded = true) :
    (action a).run s = .error .running s := by
  simp only [action, EStateM.run_bind, ha, if_true, ensureIdle, EStateM.run_get, h]
  rfl

/-- Otherwise the action is its body. -/
theorem run_action (h : a.isGuarded = true → s.isRunning = false) :
    (action a).run s = (body a).run s := by
  cases ha : a.isGuarded with
  | true =>
    simp only [action, EStateM.run_bind, ha, if_true, ensureIdle, EStateM.run_get, h ha,
      Bool.false_eq_true, if_false, EStateM.run_pure]
  | false =>
    simp only [action, ha, Bool.false_eq_true, if_false]

end InPlace

/-- The answer to an action that is carried out in place, and the session that is
left, also where an error was thrown. -/
def carryOut (s : Session) (a : Action) : Response × Session :=
  match (InPlace.action a).run s with
  | .ok response s' => (response, s')
  | .error error s' => (.refused error, s')

open InPlace in
/-- **In place or not, an action comes to the same.** -/
theorem carryOut_eq_perform (s : Session) (a : Action) : s.carryOut a = s.perform a := by
  by_cases h : a.isGuarded = true → s.isRunning = false
  · rw [carryOut, run_action h]
    cases a with
    | renew seed =>
      rw [perform, renew, whenIdle_of_not_isRunning (h rfl)]
      simp only [body, EStateM.run_bind, EStateM.run_get, rewind_eq_modify]
      cases Puzzle.generate s.width s.height seed <;> rfl
    | push block =>
      rw [perform, push, whenIdle_of_not_isRunning (h rfl), body, Program.InPlace.push_eq_modify]
      rfl
    | remove index =>
      rw [perform, remove, whenIdle_of_not_isRunning (h rfl)]
      simp only [body, onProgram, EStateM.run_bind, EStateM.run_get, Program.InPlace.run_remove]
      cases s.program.remove? index <;> rfl
    | reorder source target =>
      rw [perform, reorder, whenIdle_of_not_isRunning (h rfl)]
      simp only [body, onProgram, EStateM.run_bind, EStateM.run_get, Program.InPlace.run_reorder]
      cases s.program.reorder? source target <;> rfl
    | clear =>
      rw [perform, clear, whenIdle_of_not_isRunning (h rfl), body, Program.InPlace.clear_eq_modify,
        rewind_eq_modify]
      rfl
    | undo =>
      rw [perform, undo, whenIdle_of_not_isRunning (h rfl)]
      rfl
    | redo =>
      rw [perform, redo, whenIdle_of_not_isRunning (h rfl)]
      rfl
    | play =>
      rw [perform, play, whenIdle_of_not_isRunning (h rfl)]
      simp only [body, EStateM.run_bind, EStateM.run_get, rewind_eq_modify]
      cases s.program.isEmpty <;> rfl
    | step | playOut => rfl
    | cancel | rewind =>
      rw [body, rewind_eq_modify]
      rfl
  · obtain ⟨ha, hrunning⟩ := Classical.not_imp.1 h
    rw [Bool.not_eq_false] at hrunning
    rw [carryOut, run_action_of_isRunning hrunning ha, perform_of_isRunning hrunning ha]

end Session
end Labyrinth
