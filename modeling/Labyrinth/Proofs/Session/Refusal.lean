/-
# Refused actions

An action is refused for one of five reasons (`Session.Refuses`), each with its
own error, and for no other (`Session.perform_refused_iff`).  In a game four are
left.  The puzzle of a game was generated, so its sides are in order, and there
is a puzzle for every other seed as well.

A refused action changes nothing, also where it is carried out in place
(`Session.refused_in_game`).
-/

import Labyrinth.Proofs.Session.InPlace
import Labyrinth.Proofs.Session.Trail

namespace Labyrinth
namespace Session

/-- Why a session refuses an action. -/
inductive Refuses (s : Session) : Action → SessionError → Prop
  /-- The program is running. -/
  | running {a : Action} : a.isGuarded = true → s.isRunning = true → Refuses s a .running
  /-- There are no blocks to play. -/
  | nothingToRun : s.isRunning = false → s.program.isEmpty = true →
      Refuses s .play .nothingToRun
  /-- There is no block to take out. -/
  | remove {index : Nat} : s.isRunning = false → s.program.length ≤ index →
      Refuses s (.remove index) (.noBlockAt index)
  /-- One of two indexes has no block, so the greater one has none. -/
  | reorder {source target : Nat} : s.isRunning = false → s.program.length ≤ max source target →
      Refuses s (.reorder source target) (.noBlockAt (max source target))
  /-- There is no puzzle for the seed. -/
  | renew {seed : String} {error : PuzzleError} : s.isRunning = false →
      Puzzle.generate s.width s.height seed = .error error →
      Refuses s (.renew seed) (.noPuzzle error)

variable {s : Session} {a : Action} {error : SessionError}

/-- Removing is refused exactly behind the end. -/
theorem remove?_eq_none_iff {p : Program} {index : Nat} :
    p.remove? index = none ↔ p.length ≤ index := by
  rw [Program.remove?, Option.map_eq_none_iff, List.getElem?_eq_none_iff, Program.length]

/-- Reordering is refused exactly if one of the places is behind the end. -/
theorem reorder?_eq_none_iff {p : Program} {source target : Nat} :
    p.reorder? source target = none ↔ p.length ≤ max source target := by
  rw [Program.reorder?, Option.map_eq_none_iff, moveBlock?, Program.length]
  split
  · rename_i h
    exact iff_of_false (by rintro ⟨⟩) (by omega)
  · exact iff_of_true rfl (by omega)

/-- A running program is the only reason while it runs. -/
theorem refuses_of_isRunning (hrunning : s.isRunning = true)
    (h : (s.perform a).1 = .refused error) : s.Refuses a error := by
  cases a with
  | renew | push | remove | reorder | clear | undo | redo | play =>
    rw [perform_of_isRunning hrunning rfl] at h
    cases h
    exact .running rfl hrunning
  | step | playOut | cancel | rewind => cases h

/-- The reasons of a session that is not running. -/
theorem refuses_of_idle (hidle : s.isRunning = false) (h : (s.perform a).1 = .refused error) :
    s.Refuses a error := by
  cases a with
  | renew seed =>
    rw [perform, renew, whenIdle_of_not_isRunning hidle] at h
    cases hpuzzle : Puzzle.generate s.width s.height seed with
    | ok puzzle =>
      rw [hpuzzle] at h
      cases h
    | error =>
      rw [hpuzzle] at h
      cases h
      exact .renew hidle hpuzzle
  | remove index =>
    rw [perform, remove, whenIdle_of_not_isRunning hidle] at h
    cases hremoved : s.program.remove? index with
    | some removed =>
      rw [hremoved] at h
      cases h
    | none =>
      rw [hremoved] at h
      cases h
      exact .remove hidle (remove?_eq_none_iff.1 hremoved)
  | reorder source target =>
    rw [perform, reorder, whenIdle_of_not_isRunning hidle] at h
    cases hmoved : s.program.reorder? source target with
    | some program =>
      rw [hmoved] at h
      cases h
    | none =>
      rw [hmoved] at h
      cases h
      exact .reorder hidle (reorder?_eq_none_iff.1 hmoved)
  | play =>
    rw [perform, play, whenIdle_of_not_isRunning hidle] at h
    cases hempty : s.program.isEmpty with
    | true =>
      rw [hempty] at h
      cases h
      exact .nothingToRun hidle hempty
    | false =>
      rw [hempty] at h
      cases h
  | push | clear | undo | redo =>
    simp only [perform, push, clear, undo, redo, whenIdle_of_not_isRunning hidle] at h
    cases h
  | step | playOut | cancel | rewind => cases h

/-- **An action is refused for one of the reasons and for no other.** -/
theorem perform_refused_iff : (s.perform a).1 = .refused error ↔ s.Refuses a error := by
  constructor
  · intro h
    cases hrunning : s.isRunning with
    | true => exact refuses_of_isRunning hrunning h
    | false => exact refuses_of_idle hrunning h
  · intro h
    cases h with
    | running ha hrunning => rw [perform_of_isRunning hrunning ha]
    | nothingToRun hidle hempty =>
      rw [perform, play, whenIdle_of_not_isRunning hidle, hempty]
      rfl
    | remove hidle hindex =>
      rw [perform, remove, whenIdle_of_not_isRunning hidle, remove?_eq_none_iff.2 hindex]
      rfl
    | reorder hidle hindex =>
      rw [perform, reorder, whenIdle_of_not_isRunning hidle, reorder?_eq_none_iff.2 hindex]
      rfl
    | renew hidle hpuzzle =>
      rw [perform, renew, whenIdle_of_not_isRunning hidle, hpuzzle]
      rfl

/-- **A refused action leaves everything as it was**, also when it is carried out in
place. -/
theorem eq_of_action_error {left : Session} (h : (InPlace.action a).run s = .error error left) :
    left = s := by
  have hrefused : s.perform a = (.refused error, left) := by
    rw [← carryOut_eq_perform, carryOut, h]
  have hsame : (s.perform a).2 = s := perform_refused (congrArg Prod.fst hrefused)
  rw [hrefused] at hsame
  exact hsame

/-- In a game there is a puzzle for every seed. -/
theorem Reachable.exists_generate (h : s.Reachable) (seed : String) :
    ∃ puzzle, Puzzle.generate s.width s.height seed = .ok puzzle := by
  obtain ⟨hw, hh, -⟩ := Puzzle.generate_eq_ok_iff.1 h.trailed.generated
  obtain ⟨-, puzzle, -, -, hpuzzle, -⟩ := Puzzle.generate_of_le hw hh seed
  exact ⟨puzzle, hpuzzle⟩

/-- **What is refused in a game.**  Every action can be carried out in place, and an
error that it throws leaves the whole session as it was.  The error of a running
program answers the actions that it guards, and it does so exactly while the
program is running.  An error that names an index names one without a block.  A
session that is not running gets a new puzzle for every seed, so no error of the
generator reaches a game. -/
theorem refused_in_game (h : s.Reachable) :
    (∀ a, s.carryOut a = s.perform a) ∧
    (∀ a error left, (InPlace.action a).run s = .error error left → left = s) ∧
    (∀ a : Action, a.isGuarded → ((s.perform a).1 = .refused .running ↔ s.phase = .running)) ∧
    (∀ a index, (s.perform a).1 = .refused (.noBlockAt index) → s.program.length ≤ index) ∧
    (s.phase ≠ .running → ∀ seed, (s.perform (.renew seed)).1 = .done) ∧
    (∀ a error, (s.perform a).1 ≠ .refused (.noPuzzle error)) := by
  have hphase : s.isRunning = true ↔ s.phase = .running := decide_eq_true_iff
  refine ⟨s.carryOut_eq_perform, fun a error left => eq_of_action_error, fun a ha => ?_,
    fun a index hrefused => ?_, fun hidle seed => ?_, fun a error hrefused => ?_⟩
  · rw [perform_refused_iff, ← hphase]
    constructor
    · rintro ⟨-, hrunning⟩
      exact hrunning
    · exact .running ha
  · cases perform_refused_iff.1 hrefused with
    | remove _ hindex => exact hindex
    | reorder _ hindex => exact hindex
  · obtain ⟨puzzle, hpuzzle⟩ := h.exists_generate seed
    rw [Ne, ← hphase, Bool.not_eq_true] at hidle
    rw [perform, renew, whenIdle_of_not_isRunning hidle, hpuzzle]
    rfl
  · cases perform_refused_iff.1 hrefused with
    | @renew seed _ _ herror =>
      obtain ⟨puzzle, hpuzzle⟩ := h.exists_generate seed
      rw [herror] at hpuzzle
      cases hpuzzle

/-- In a new game there is no block to move, but another maze to get; with two
blocks running, there is not even that, and the session stays as it was. -/
theorem refused_in_game_two_blocks :
    ∃ s : Session, s.Reachable ∧ s.program.length ≤ 3 ∧
      (s.perform (.reorder 1 3)).1 = .refused (.noBlockAt 3) ∧
      (s.perform (.renew "other")).1 = .done ∧
      ∃ s' : Session, s'.Reachable ∧ s'.phase = .running ∧
        (s'.perform (.renew "other")).1 = .refused .running ∧
        (s'.carryOut (.renew "other")) = (.refused .running, s') := by
  obtain ⟨puzzle, hnew⟩ := @exists_reachable_ofPuzzle 5 4 (by decide) (by decide) "maze"
  have hidle : (ofPuzzle 5 4 "maze" puzzle).phase ≠ .running := by rintro ⟨⟩
  have hs' := hnew.replay [.push .down, .push .right, .play]
  have hmissing : ((ofPuzzle 5 4 "maze" puzzle).perform (.reorder 1 3)).1 =
      .refused (.noBlockAt 3) := rfl
  obtain ⟨-, -, -, hindex, hrenew, -⟩ := refused_in_game hnew
  obtain ⟨hcarry, -, hrunning, -⟩ := refused_in_game hs'
  have hrefused := (hrunning (.renew "other") rfl).2 rfl
  refine ⟨_, hnew, hindex _ _ hmissing, hmissing, hrenew hidle "other", _, hs', rfl, hrefused, ?_⟩
  rw [hcarry]
  exact Prod.ext hrefused (perform_refused hrefused)

end Session
end Labyrinth
