/-
# What the drawing of a session shows

In every session of a game the character, the goal and the path are on open cells,
and the path comes upon the goal only with its last cell.  So nothing that is drawn
hides a wall, and the goal is hidden only by the character that has arrived there
(`Session.Trailed.inTheOpen`).  The drawing then shows the session as it is
(`Session.drawing_shows_session`).
-/

import Labyrinth.Proofs.Drawing
import Labyrinth.Proofs.Session.Trail

namespace Labyrinth
namespace Session

variable {s : Session} {p : Position}

/-- The character of a session with a trail stands on an open cell, and so does its goal.
-/
theorem Trailed.inTheOpen (h : s.Trailed) : s.scene.InTheOpen := by
  obtain ⟨hcovered, hfits⟩ := Puzzle.covered_of_generate h.generated
  obtain ⟨hplayable, -⟩ := Puzzle.playable_of_generate h.generated
  obtain ⟨ds, hw, hpath⟩ := h.walk
  refine ⟨hcovered.isLaidOut, hfits, hw.isOpen_last, hplayable.isOpen_goal, ?_, ?_⟩
  · intro p hp
    rw [← Array.mem_toList_iff] at hp
    exact hw.isOpen_of_mem_path (hpath ▸ hp)
  · intro hmem
    refine Classical.byContradiction fun hne => ?_
    exact h.goal_notMem_path (Ne.symm hne) (Array.mem_toList_iff.2 hmem)

/-- **The drawing shows the session as it is.**  In every session of a game the
drawing has as many lines as the maze has rows, each with as many characters as the
maze has columns.  The walls of the maze are drawn as `#`, and nothing else is.  The
character is drawn as the only `@`.  The goal is drawn as the only `*`, except in a
game that is solved, where there is none.  The cells of the path are drawn as `.`,
except where the character stands, and nothing else is.  All other cells are
blank. -/
theorem drawing_shows_session (h : s.Reachable) :
    let maze := s.puzzle.maze
    let text := s.scene.render
    ((linesOf text).length = s.height ∧ (∀ l ∈ linesOf text, l.length = s.width) ∧
      text = String.join ((linesOf text).map (· ++ "\n"))) ∧
    (∀ p, charAt? text p = some '#' ↔ ∃ c, maze.get? p = some c ∧ c.isWall = true) ∧
    (∀ p, charAt? text p = some '@' ↔ p = s.character) ∧ text.toList.count '@' = 1 ∧
    (∀ p, charAt? text p = some '*' ↔ p = s.puzzle.goal ∧ s.phase ≠ .solved) ∧
    text.toList.count '*' = (if s.phase = .solved then 0 else 1) ∧
    (∀ p, charAt? text p = some '.' ↔ p ∈ s.path ∧ p ≠ s.character) ∧
    ∀ p c, maze.get? p = some c → ∃ a ∈ ['@', '*', '#', '.', ' '], charAt? text p = some a := by
  intro maze text
  have htrail := h.trailed
  have hscene := htrail.inTheOpen
  have hsolved : s.phase = .solved ↔ s.scene.goal = s.scene.character :=
    htrail.phase_eq_solved_iff.trans eq_comm
  obtain ⟨hcovered, -⟩ := Puzzle.covered_of_generate htrail.generated
  obtain ⟨hheight, hwidth, htext⟩ := s.scene.linesOf_render_spec
  refine ⟨⟨hheight.trans hcovered.height_eq, ?_, htext⟩, fun p => hscene.charAt?_eq_wall_iff,
    fun p => hscene.charAt?_eq_character_iff, hscene.count_character, fun p => ?_, ?_,
    fun p => hscene.charAt?_eq_trail_iff, fun p c hc => ?_⟩
  · intro l hl
    exact (hwidth l hl).trans hcovered.width_eq
  · rw [Ne, hsolved]
    exact hscene.charAt?_eq_goal_iff
  · simp only [hsolved]
    exact hscene.count_goal
  · refine ⟨s.scene.mark c, s.scene.mark_mem c, ?_⟩
    rw [Scene.charAt?_render]
    exact congrArg (Option.map s.scene.mark) hc

/-- After the first of two moves down the trail of the game is one cell long, and the
drawing shows one character, the goal in the second column from the right, and the
trail above the character. -/
theorem drawing_shows_session_five_by_four :
    ∃ s : Session, s.Reachable ∧
      s.scene.render = "#####\n#.# #\n#@#*#\n#   #\n" ∧
      s.scene.render.toList.count '@' = 1 ∧ s.scene.render.toList.count '*' = 1 ∧
      (charAt? s.scene.render (.nearest 1 1) = some '.' ↔
        .nearest 1 1 ∈ s.path ∧ .nearest 1 1 ≠ s.character) := by
  let actions : List Action := [.push .down, .push .down, .play, .step]
  obtain ⟨new, hnew, hphase, htext⟩ := @exists_create_of_any
    (fun s => (replay perform s actions).2.phase ≠ .solved ∧
      (replay perform s actions).2.scene.render = "#####\n#.# #\n#@#*#\n#   #\n") _ 5 4 "maze"
    (by decide +kernel)
  have hreachable := (Reachable.created hnew).replay actions
  obtain ⟨-, -, -, hcharacter, -, hgoal, htrail, -⟩ := drawing_shows_session hreachable
  rw [if_neg hphase] at hgoal
  exact ⟨_, hreachable, htext, hcharacter, hgoal, htrail _⟩

end Session
end Labyrinth
