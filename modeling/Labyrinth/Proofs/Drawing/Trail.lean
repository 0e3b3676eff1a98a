/-
# What a drawing shows of a path

A path may go anywhere: through walls, out of the grid, and over its own cells again.
The drawing has a point at each position of its trail, which leaves out what is not an
open cell or is hidden by the character or the goal.  Nothing else of the path has any
part in it, not even the order (`Scene.mark_congr`).  So two paths make the same drawing
exactly if they leave the same trail (`Scene.render_eq_iff_trail`).
-/

import Labyrinth.Proofs.Drawing

namespace Labyrinth
namespace Scene

variable {s : Scene} {c : Cell} {p : Position} {width height : Nat}

/-- The mark of a cell only depends on whether the cell is on the trail. -/
theorem mark_congr {path : Array Position} (hc : s.maze.isOpen c.position ∨ c.isWall = true)
    (h : c.position ∈ s.trail ↔ c.position ∈ ({ s with path } : Scene).trail) :
    s.mark c = ({ s with path } : Scene).mark c := by
  simp only [mem_trail_iff] at h
  unfold mark
  by_cases hcharacter : c.position = s.character
  · rw [if_pos hcharacter, if_pos hcharacter]
  · by_cases hgoal : c.position = s.goal
    · rw [if_neg hcharacter, if_pos hgoal, if_neg hcharacter, if_pos hgoal]
    · rcases hc with hopen | hwall
      · have hpath : s.path.contains c.position = path.contains c.position := by
          rw [Bool.eq_iff_iff, Array.contains_iff_mem, Array.contains_iff_mem]
          simpa [hopen, hgoal, hcharacter] using h
        rw [hpath]
      · rw [if_neg hcharacter, if_neg hgoal, if_pos hwall, if_neg hcharacter, if_neg hgoal,
          if_pos hwall]

/-- Drawings with the same marks are equal. -/
theorem render_congr {s' : Scene} (hmaze : s.maze = s'.maze)
    (h : ∀ c ∈ s.maze.toList, s.mark c = s'.mark c) : s.render = s'.render := by
  have hlines : s.lines = s'.lines := by
    rw [lines, lines, ← hmaze]
    refine List.map_congr_left fun row hrow => List.map_congr_left fun c hc => h c ?_
    exact List.mem_flatMap.2 ⟨row, hrow, hc⟩
  rw [render, render, hlines]

/-- **Two paths make the same drawing exactly if they leave the same trail.** -/
theorem render_eq_iff (hl : s.maze.IsLaidOut) (hf : s.maze.Fits) (path : Array Position) :
    s.render = ({ s with path } : Scene).render ↔
      ∀ p, p ∈ s.trail ↔ p ∈ ({ s with path } : Scene).trail := by
  constructor
  · intro h p
    rw [← charAt?_eq_point_iff hl, ← charAt?_eq_point_iff (s := { s with path }) hl, h]
  · intro h
    refine render_congr rfl fun c hc => mark_congr ?_ (h c.position)
    obtain ⟨p, hp⟩ := hf.exists_get? hc
    obtain rfl := hl.position_eq hp
    cases hwall : c.isWall with
    | true => exact Or.inr rfl
    | false => exact Or.inl (Maze.isOpen_iff.2 ⟨c, hp, hwall⟩)

/-- **The drawing shows the trail of a path, and no more.**  Take a maze that openings
made of walls, with sides for which all cells have positions, and let the character and
the goal be anywhere.  The drawing has a line for each row and a character for each
column, and each line is ended.  Two paths, whatever their positions, make the same
drawing exactly if they have the same positions when those are dropped that are outside
the grid, on a wall, on the goal or on the character. -/
theorem render_eq_iff_trail (hw : width ≤ 2147483647) (hh : height ≤ 2147483647)
    (openings : List Opening) (character goal : Position) (path path' : Array Position) :
    let s : Scene := ⟨.ofOpenings width height openings, character, goal, path⟩
    let s' : Scene := { s with path := path' }
    ((linesOf s.render).length = height ∧ (∀ l ∈ linesOf s.render, l.length = width) ∧
      s.render = String.join ((linesOf s.render).map (· ++ "\n"))) ∧
    (s.render = s'.render ↔ ∀ p, p ∈ s.trail ↔ p ∈ s'.trail) := by
  intro s s'
  obtain ⟨hheight, hwidth, htext⟩ := s.linesOf_render_spec
  refine ⟨⟨hheight.trans (Maze.height_ofOpenings ..), fun l hl => ?_, htext⟩, ?_⟩
  · exact (hwidth l hl).trans (Maze.width_ofOpenings ..)
  · exact render_eq_iff (Maze.isLaidOut_ofOpenings _ _ _) (Maze.fits_ofOpenings hw hh openings)
      path'

/-- The character stands on a wall outside the path, and the goal outside the grid.  The
first path goes through both open cells, a wall and out of the grid, the second only
comes back over the open cells in the other order, and the third misses one of them. -/
theorem render_eq_iff_trail_three_paths :
    let openings : List Opening := [.carve (.nearest 1 0), .visit (.nearest 1 1)]
    let s : Scene := ⟨.ofOpenings 3 2 openings, .nearest 0 1, .nearest 9 9,
      #[.nearest 1 0, .nearest 2 0, .nearest 7 0, .nearest 1 1, .nearest 0 1]⟩
    s.render = "#.#\n@.#\n" ∧
    s.render = ({ s with path := #[.nearest 1 1, .nearest 1 0, .nearest 1 1] } : Scene).render ∧
    s.render ≠ ({ s with path := #[.nearest 1 1] } : Scene).render := by
  intro openings s
  obtain ⟨-, hsame⟩ := @render_eq_iff_trail 3 2 (by decide) (by decide) openings s.character
    s.goal s.path #[.nearest 1 1, .nearest 1 0, .nearest 1 1]
  obtain ⟨-, hother⟩ := @render_eq_iff_trail 3 2 (by decide) (by decide) openings s.character
    s.goal s.path #[.nearest 1 1]
  have htrail : s.trail = [.nearest 1 0, .nearest 1 1] := by decide +kernel
  have htrail' : ({ s with path := #[.nearest 1 1, .nearest 1 0, .nearest 1 1] } : Scene).trail =
      [.nearest 1 1, .nearest 1 0, .nearest 1 1] := by decide +kernel
  have hmissed : .nearest 1 0 ∉ ({ s with path := #[.nearest 1 1] } : Scene).trail := by
    decide +kernel
  refine ⟨by decide +kernel, hsame.2 fun p => ?_, fun h => ?_⟩
  · rw [htrail, htrail']
    simp only [List.mem_cons, List.not_mem_nil, or_false]
    constructor
    · rintro (hp | hp)
      · exact Or.inr (Or.inl hp)
      · exact Or.inl hp
    · rintro (hp | hp | hp)
      · exact Or.inr hp
      · exact Or.inl hp
      · exact Or.inr hp
  · exact hmissed ((hother.1 h (.nearest 1 0)).1 (htrail ▸ List.mem_cons_self))

end Scene
end Labyrinth
