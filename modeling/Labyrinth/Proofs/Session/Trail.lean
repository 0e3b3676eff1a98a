/-
# The trail of the character

All through a game the puzzle is the one of the seed, and the path that is shown
is a walk through its maze, from the start to the character
(`Session.Trailed`).  The walk comes upon the goal only with its last cell, and
the game is solved exactly as long as the character stands there.  This rests on
two facts: a new puzzle has its goal away from its start, and a program that is
running has not been at the goal.
-/

import Labyrinth.Proofs.Puzzle.Goal
import Labyrinth.Proofs.Session.Coherence

namespace Labyrinth
namespace Session

/-- **The path is the trail of the character** in the puzzle of the seed. -/
structure Trailed (s : Session) : Prop where
  generated : Puzzle.generate s.width s.height s.seed = .ok s.puzzle
  walk : ∃ ds, s.puzzle.maze.Walk s.puzzle.start ds s.character ∧
    s.path.toList = s.puzzle.start.path ds
  goal_notMem : s.puzzle.goal ∉ s.path.toList.dropLast
  phase_eq_solved_iff : s.phase = .solved ↔ s.character = s.puzzle.goal

variable {s s' : Session} {e e' : Execution} {d : Direction}

/-- At the start of a generated puzzle nothing is solved. -/
theorem trailed_of_start (hpuzzle : Puzzle.generate s.width s.height s.seed = .ok s.puzzle)
    (hphase : s.phase ≠ .solved) (hcharacter : s.character = s.puzzle.start)
    (hpath : s.path = #[s.puzzle.start]) : s.Trailed := by
  obtain ⟨hplayable, -⟩ := Puzzle.playable_of_generate hpuzzle
  refine ⟨hpuzzle, ⟨[], ?_, ?_⟩, ?_, iff_of_false hphase ?_⟩
  · rw [hcharacter]
    exact .stay hplayable.isOpen_start
  · rw [hpath]
    rfl
  · rw [hpath]
    exact List.not_mem_nil
  · rw [hcharacter]
    exact hplayable.start_ne_goal

namespace Trailed

/-- The last position of the path is where the character stands. -/
theorem back?_path (h : s.Trailed) : s.path.back? = some s.character := by
  obtain ⟨ds, hw, hpath⟩ := h.walk
  rw [← Array.getLast?_toList, hpath, hw.getLast?_path]

/-- Away from the goal, the trail does not touch the goal. -/
theorem goal_notMem_path (h : s.Trailed) (hne : s.character ≠ s.puzzle.goal) :
    s.puzzle.goal ∉ s.path.toList := by
  have hback := h.back?_path
  rw [← Array.getLast?_toList] at hback
  obtain ⟨before, hpath⟩ := List.getLast?_eq_some_iff.1 hback
  have hgoal := h.goal_notMem
  rw [hpath, List.dropLast_concat] at hgoal
  rw [hpath, List.mem_append, List.mem_singleton, not_or]
  exact ⟨hgoal, hne.symm⟩

/-- A running program has not been at the goal. -/
theorem character_ne_goal (h : s.Trailed) (hshows : s.Shows e) : s.character ≠ s.puzzle.goal := by
  intro hgoal
  have hsolved := h.phase_eq_solved_iff.2 hgoal
  have hrunning := hshows.running
  rw [isRunning, hsolved] at hrunning
  cases hrunning

/-- The session follows an execution that stays where the character is. -/
theorem follow_stay (h : s.Trailed) (hshows : s.Shows e) (hposition : e'.position = e.position)
    (hpath : e'.path = e.path) (hphase : (s.follow e').phase ≠ .solved) :
    (s.follow e').Trailed := by
  have hcharacter : (s.follow e').character = s.character := hposition.trans hshows.position_eq
  have hpath : (s.follow e').path = s.path := hpath.trans hshows.path_eq
  refine ⟨h.generated, ?_, ?_, iff_of_false hphase ?_⟩
  · rw [hcharacter, hpath]
    exact h.walk
  · rw [hpath]
    exact h.goal_notMem
  · rw [hcharacter]
    exact h.character_ne_goal hshows

/-- The session follows an execution that makes a move. -/
theorem follow_move (h : s.Trailed) (hshows : s.Shows e)
    (hmove : s.puzzle.maze.canMove e.position d = true)
    (hposition : e'.position = e.position.move d)
    (hpath : e'.path = e.path.push (e.position.move d))
    (hphase : (s.follow e').phase = .solved ↔ e.position.move d = e.goal) :
    (s.follow e').Trailed := by
  obtain ⟨hl, hopen⟩ := Maze.canMove_iff.1 hmove
  rw [hshows.position_eq] at hl hopen hposition hpath hphase
  rw [hshows.path_eq] at hpath
  have hcharacter : (s.follow e').character = s.character.move d := hposition
  have hpath : (s.follow e').path.toList = s.path.toList ++ [s.character.move d] := by
    rw [← Array.toList_push, ← hpath]
    rfl
  refine ⟨h.generated, ?_, ?_, ?_⟩
  · obtain ⟨ds, hw, htrail⟩ := h.walk
    rw [hcharacter, hpath, htrail]
    exact ⟨ds ++ [d], hw.snoc hl hopen, (hw.path_snoc hl).symm⟩
  · rw [hpath, List.dropLast_concat]
    exact h.goal_notMem_path (h.character_ne_goal hshows)
  · rw [hphase, hcharacter, hshows.goal_eq]
    rfl

/-- **A step keeps the trail**, whichever of the six it is. -/
theorem follow_step (h : s.Trailed) (hshows : s.Shows e) :
    (s.follow (e.step s.puzzle.maze).2).Trailed := by
  have hstep := e.stepped s.puzzle.maze
  revert hstep
  generalize e.step s.puzzle.maze = stepped
  intro hstep
  cases hstep with
  | ended hresult =>
    rw [hshows.unfinished] at hresult
    cases hresult
  | usedUp _ hrest => exact absurd hrest hshows.rest_ne
  | barred _ _ _ => exact h.follow_stay hshows rfl rfl (by rintro ⟨⟩)
  | arrived _ _ hmove hgoal => exact h.follow_move hshows hmove rfl rfl (iff_of_true rfl hgoal)
  | lastMove _ _ hmove hgoal =>
    exact h.follow_move hshows hmove rfl rfl (iff_of_false (by rintro ⟨⟩) hgoal)
  | moved hresult _ _ hmove hgoal =>
    refine h.follow_move hshows hmove rfl rfl (iff_of_false ?_ hgoal)
    rw [phase_follow_of_none (e := e.advance _) hresult, of_decide_eq_true hshows.running]
    rintro ⟨⟩

/-- **Every effect on a coherent session keeps the trail.** -/
theorem effect (h : s.Trailed) (hcoherent : s.Coherent) (heffect : s.Effect s') : s'.Trailed := by
  cases heffect with
  | nothing => exact h
  | edit program _ => exact ⟨h.generated, h.walk, h.goal_notMem, h.phase_eq_solved_iff⟩
  | renew seed puzzle _ hpuzzle => exact trailed_of_start hpuzzle (by rintro ⟨⟩) rfl rfl
  | clear _ _ | play _ _ | cancel | rewind =>
    exact trailed_of_start h.generated (by rintro ⟨⟩) rfl rfl
  | step hr => exact h.follow_step (hcoherent.shows hr)

end Trailed

/-- **Every session of a game has its trail.** -/
theorem Reachable.trailed (h : s.Reachable) : s.Trailed := by
  have hboth : s.Coherent ∧ s.Trailed := by
    refine h.invariant (P := fun s => s.Coherent ∧ s.Trailed) (fun hpuzzle => ?_)
      fun heffect h => ⟨h.1.effect heffect, h.2.effect h.1 heffect⟩
    exact ⟨coherent_ofPuzzle .., trailed_of_start hpuzzle (by rintro ⟨⟩) rfl rfl⟩
  exact hboth.2

/-- **What the path shows.**  In every session of a game the puzzle is the one
generated for the current seed.  The path begins with its start and ends with the
character, its positions follow each other by single moves, and all of them are
open cells of the maze.  Only the last of them can be the goal, and the game is
solved if and only if the character stands on the goal. -/
theorem path_shows_trail (h : s.Reachable) :
    Puzzle.generate s.width s.height s.seed = .ok s.puzzle ∧
    s.path[0]? = some s.puzzle.start ∧ s.path.back? = some s.character ∧
    (∀ (i : Nat) (p q : Position),
      s.path[i]? = some p → s.path[i + 1]? = some q → ∃ d, p.Leads d q) ∧
    (∀ p ∈ s.path, s.puzzle.maze.isOpen p) ∧
    (∀ i : Nat, s.path[i]? = some s.puzzle.goal → i + 1 = s.path.size) ∧
    (s.phase = .solved ↔ s.character = s.puzzle.goal) := by
  have htrail := h.trailed
  obtain ⟨ds, hw, hpath⟩ := htrail.walk
  refine ⟨htrail.generated, ?_, htrail.back?_path, fun i p q hp hq => ?_, fun p hp => ?_,
    fun i hi => ?_, htrail.phase_eq_solved_iff⟩
  · rw [← Array.getElem?_toList, hpath]
    cases ds <;> rfl
  · rw [← Array.getElem?_toList, hpath] at hp hq
    exact hw.exists_leads_of_path hp hq
  · rw [← Array.mem_toList_iff, hpath] at hp
    exact hw.isOpen_of_mem_path hp
  · have hlt := (Array.getElem?_eq_some_iff.1 hi).1
    refine Classical.byContradiction fun hne => ?_
    have hbefore : s.path.toList.dropLast[i]? = some s.puzzle.goal := by
      rw [List.getElem?_dropLast, Array.length_toList, if_pos (by omega), Array.getElem?_toList, hi]
    exact htrail.goal_notMem (List.mem_of_getElem? hbefore)

/-- In a game with the blocks of the solution, playing out leads to the goal in the
sixth position of the path and not before. -/
theorem path_shows_trail_five_by_four :
    ∃ s : Session, s.Reachable ∧ s.phase = .solved ∧ s.character = s.puzzle.goal ∧
      s.path.size = 6 ∧ ∀ i : Nat, s.path[i]? = some s.puzzle.goal → i + 1 = 6 := by
  let actions : List Action :=
    [.push .down, .push .down, .push .right, .push .right, .push .up, .play, .playOut]
  have hsolved : (create 5 4 "maze").toOption.any (fun s =>
      (replay perform s actions).2.phase = .solved ∧
        (replay perform s actions).2.path.size = 6) = true := by decide +kernel
  cases hcreate : create 5 4 "maze" with
  | error =>
    rw [hcreate] at hsolved
    cases hsolved
  | ok s =>
    rw [hcreate, Except.toOption, Option.any_some, decide_eq_true_iff] at hsolved
    have hs : (replay perform s actions).2.Reachable := (Reachable.created hcreate).replay actions
    obtain ⟨-, -, -, -, -, hlast, hphase⟩ := path_shows_trail hs
    rw [hsolved.2] at hlast
    exact ⟨_, hs, hsolved.1, hphase.1 hsolved.1, hsolved.2, hlast⟩

end Session
end Labyrinth
