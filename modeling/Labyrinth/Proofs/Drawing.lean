/-
# Reading a drawing

A drawing is one text.  The character in a column of a line of it is the mark of the
cell in that column and row of the maze (`Scene.charAt?_render`), so the drawing can
be read back cell by cell, and counting a mark in the text counts cells
(`Scene.count_render`).

A mark by itself does not tell all: the character hides the goal, and both hide what
is under them.  So the points in a drawing show the trail of the path, which is on open
cells and not under the two (`Scene.charAt?_eq_point_iff`).  Where the character, the
goal and the path are on open cells (`Scene.InTheOpen`) nothing is hidden but the path
under the character, and each mark says exactly one thing.
-/

import Labyrinth.Drawing
import Labyrinth.Proofs.Lines
import Labyrinth.Proofs.Maze.Text
import Mathlib.Tactic.SplitIfs

namespace Labyrinth

/-- The character of a text in the column and the line of a position. -/
def charAt? (text : String) (p : Position) : Option Char :=
  if 0 ≤ p.x ∧ 0 ≤ p.y then (linesOf text)[p.y.toNat]?.bind (·.toList[p.x.toNat]?) else none

namespace Scene

variable {s : Scene} {c : Cell} {p : Position} {a : Char}

/-! ## Marks -/

/-- A cell is drawn by one of five marks. -/
theorem mark_mem (s : Scene) (c : Cell) : s.mark c ∈ ['@', '*', '#', '.', ' '] := by
  unfold mark
  split_ifs <;> simp

/-- None of them ends a line. -/
theorem mark_ne_newline (s : Scene) (c : Cell) : s.mark c ≠ '\n' := by
  have h := s.mark_mem c
  intro he
  simp [he] at h

/-- The character is drawn where it stands. -/
theorem mark_eq_character_iff : s.mark c = '@' ↔ c.position = s.character := by
  unfold mark
  split_ifs <;> simp_all

/-- The goal is drawn where the character does not hide it. -/
theorem mark_eq_goal_iff : s.mark c = '*' ↔ c.position = s.goal ∧ c.position ≠ s.character := by
  unfold mark
  split_ifs <;> simp_all

/-- A wall is drawn where neither of them is. -/
theorem mark_eq_wall_iff :
    s.mark c = '#' ↔ c.isWall ∧ c.position ≠ s.goal ∧ c.position ≠ s.character := by
  unfold mark
  split_ifs <;> simp_all

/-- A point is drawn on the path where the cell is open and neither of them is. -/
theorem mark_eq_trail_iff :
    s.mark c = '.' ↔ c.isWall = false ∧ c.position ∈ s.path ∧ c.position ≠ s.goal ∧
      c.position ≠ s.character := by
  unfold mark
  split_ifs <;> simp_all

/-! ## Reading back -/

/-- The lines of a drawing have no line feed inside. -/
theorem newline_notMem_lines (s : Scene) : ∀ l ∈ s.lines, '\n' ∉ l := by
  intro l hl
  obtain ⟨row, -, rfl⟩ := List.mem_map.1 hl
  intro hmem
  obtain ⟨c, -, hc⟩ := List.mem_map.1 hmem
  exact s.mark_ne_newline c hc

/-- So they are its lines. -/
theorem linesOf_render (s : Scene) : linesOf s.render = s.lines.map String.ofList :=
  linesOf_ofList_flatMap s.lines s.newline_notMem_lines

/-- **A drawing has a line for each row and a character for each column.** -/
theorem linesOf_render_spec (s : Scene) :
    (linesOf s.render).length = s.maze.height ∧
      (∀ l ∈ linesOf s.render, l.length = s.maze.width) ∧
      s.render = String.join ((linesOf s.render).map (· ++ "\n")) := by
  rw [linesOf_render]
  refine ⟨by simp [lines], ?_, ?_⟩
  · intro l hl
    obtain ⟨marks, hmarks, rfl⟩ := List.mem_map.1 hl
    obtain ⟨row, -, rfl⟩ := List.mem_map.1 hmarks
    simp
  · refine String.toList_inj.1 ?_
    rw [render, String.toList_ofList, String.toList_join, List.flatMap_map, List.flatMap_map]
    simp

/-- A drawing is made of lines. -/
theorem isLines_render (s : Scene) : IsLines s.render := by
  rw [s.linesOf_render_spec.2.2]
  refine IsLines.join fun t ht => ?_
  obtain ⟨l, -, rfl⟩ := List.mem_map.1 ht
  exact isLines_append_newline l

/-- **The character at a position is the mark of the cell there.** -/
theorem charAt?_render (s : Scene) (p : Position) :
    charAt? s.render p = (s.maze.get? p).map s.mark := by
  show charIn? (linesOf s.render) p = _
  rw [linesOf_render, lines, List.map_map]
  exact s.maze.charIn?_map s.mark p

/-- A character of a drawing is the mark of a cell. -/
theorem charAt?_eq_some_iff (hl : s.maze.IsLaidOut) :
    charAt? s.render p = some a ↔
      ∃ c, s.maze.get? p = some c ∧ c.position = p ∧ s.mark c = a := by
  rw [charAt?_render, Option.map_eq_some_iff]
  constructor
  · rintro ⟨c, hc, ha⟩
    exact ⟨c, hc, hl.position_eq hc, ha⟩
  · rintro ⟨c, hc, -, ha⟩
    exact ⟨c, hc, ha⟩

/-- The positions of the path that are drawn. -/
def trail (s : Scene) : List Position :=
  s.path.toList.filter fun p => s.maze.isOpen p && p ≠ s.goal && p ≠ s.character

/-- The trail is what of the path can be seen. -/
theorem mem_trail_iff :
    p ∈ s.trail ↔ p ∈ s.path ∧ s.maze.isOpen p ∧ p ≠ s.goal ∧ p ≠ s.character := by
  simp [trail, and_assoc]

/-- **The trail is where the drawing has a point.** -/
theorem charAt?_eq_point_iff (hl : s.maze.IsLaidOut) :
    charAt? s.render p = some '.' ↔ p ∈ s.trail := by
  simp only [charAt?_eq_some_iff hl, mark_eq_trail_iff, mem_trail_iff, Maze.isOpen_iff]
  constructor
  · rintro ⟨c, hc, rfl, hopen, hpath, hgoal, hcharacter⟩
    exact ⟨hpath, ⟨c, hc, hopen⟩, hgoal, hcharacter⟩
  · rintro ⟨hpath, ⟨c, hc, hopen⟩, hgoal, hcharacter⟩
    obtain rfl := hl.position_eq hc
    exact ⟨c, hc, rfl, hopen, hpath, hgoal, hcharacter⟩

/-- **To count a mark in a drawing is to count cells.** -/
theorem count_render (s : Scene) (ha : a ≠ '\n') :
    s.render.toList.count a = s.maze.toList.countP (s.mark · = a) := by
  have hlines : ∀ ls : List (List Char),
      (ls.flatMap (· ++ ['\n'])).count a = ls.flatten.count a := by
    intro ls
    induction ls with
    | nil => rfl
    | cons l ls ih => simp [ih, ha.symm]
  have hcells : s.lines.flatten = s.maze.toList.map s.mark := by
    rw [lines, Grid.toList, List.map_flatMap, List.flatMap_def]
  rw [render, String.toList_ofList, hlines, hcells, List.count, List.countP_map]
  rfl

/-! ## Scenes in the open -/

/-- The character, the goal and the path are on open cells of a maze whose cells
know where they are, and the path comes upon the goal only where the character
stands. -/
structure InTheOpen (s : Scene) : Prop where
  isLaidOut : s.maze.IsLaidOut
  fits : s.maze.Fits
  isOpen_character : s.maze.isOpen s.character
  isOpen_goal : s.maze.isOpen s.goal
  isOpen_path : ∀ p ∈ s.path, s.maze.isOpen p
  goal_mem_path : s.goal ∈ s.path → s.goal = s.character

namespace InTheOpen

/-- Every open position has a cell. -/
theorem exists_cell (h : s.InTheOpen) (hp : s.maze.isOpen p) :
    ∃ c, s.maze.get? p = some c ∧ c.position = p ∧ c.isWall = false := by
  obtain ⟨c, hc, hopen⟩ := Maze.isOpen_iff.1 hp
  exact ⟨c, hc, h.isLaidOut.position_eq hc, hopen⟩

/-- **Every wall is shown**, and nothing else as a wall. -/
theorem charAt?_eq_wall_iff (h : s.InTheOpen) :
    charAt? s.render p = some '#' ↔ ∃ c, s.maze.get? p = some c ∧ c.isWall = true := by
  simp only [charAt?_eq_some_iff h.isLaidOut, mark_eq_wall_iff]
  constructor
  · rintro ⟨c, hc, -, hwall, -⟩
    exact ⟨c, hc, hwall⟩
  · rintro ⟨c, hc, hwall⟩
    have hne : ∀ q, s.maze.isOpen q → p ≠ q := by
      rintro q hq rfl
      have hopen := Maze.isWall_eq_false_of_isOpen hq hc
      simp [hwall] at hopen
    obtain rfl := h.isLaidOut.position_eq hc
    exact ⟨c, hc, rfl, hwall, hne _ h.isOpen_goal, hne _ h.isOpen_character⟩

/-- **The character is shown where it is.** -/
theorem charAt?_eq_character_iff (h : s.InTheOpen) :
    charAt? s.render p = some '@' ↔ p = s.character := by
  simp only [charAt?_eq_some_iff h.isLaidOut, mark_eq_character_iff]
  constructor
  · rintro ⟨c, -, rfl, hc⟩
    exact hc
  · rintro rfl
    obtain ⟨c, hc, hp, -⟩ := h.exists_cell h.isOpen_character
    exact ⟨c, hc, hp, hp⟩

/-- **The goal is shown unless the character hides it.** -/
theorem charAt?_eq_goal_iff (h : s.InTheOpen) :
    charAt? s.render p = some '*' ↔ p = s.goal ∧ s.goal ≠ s.character := by
  simp only [charAt?_eq_some_iff h.isLaidOut, mark_eq_goal_iff]
  constructor
  · rintro ⟨c, -, rfl, hc, hne⟩
    exact ⟨hc, hc ▸ hne⟩
  · rintro ⟨rfl, hne⟩
    obtain ⟨c, hc, hp, -⟩ := h.exists_cell h.isOpen_goal
    exact ⟨c, hc, hp, hp, hp ▸ hne⟩

/-- **The path is shown except under the character.** -/
theorem charAt?_eq_trail_iff (h : s.InTheOpen) :
    charAt? s.render p = some '.' ↔ p ∈ s.path ∧ p ≠ s.character := by
  rw [charAt?_eq_point_iff h.isLaidOut, mem_trail_iff]
  constructor
  · rintro ⟨hmem, -, -, hne⟩
    exact ⟨hmem, hne⟩
  · rintro ⟨hmem, hne⟩
    have hgoal : p ≠ s.goal := by
      rintro rfl
      exact hne (h.goal_mem_path hmem)
    exact ⟨hmem, h.isOpen_path p hmem, hgoal, hne⟩

/-- The character is drawn once. -/
theorem count_character (h : s.InTheOpen) : s.render.toList.count '@' = 1 := by
  rw [s.count_render (by decide)]
  simp only [mark_eq_character_iff]
  exact Maze.countP_position_of_isOpen h.isLaidOut h.fits h.isOpen_character

/-- The goal is drawn once, unless the character stands on it. -/
theorem count_goal (h : s.InTheOpen) :
    s.render.toList.count '*' = if s.goal = s.character then 0 else 1 := by
  rw [s.count_render (by decide)]
  simp only [mark_eq_goal_iff]
  split
  · rename_i hsame
    rw [List.countP_eq_zero]
    intro c _
    simp [hsame]
  · rename_i hne
    rw [← Maze.countP_position_of_isOpen h.isLaidOut h.fits h.isOpen_goal]
    refine List.countP_congr fun c _ => ?_
    simp only [decide_eq_true_iff]
    constructor
    · rintro ⟨hc, -⟩
      exact hc
    · rintro hc
      exact ⟨hc, hc ▸ hne⟩

end InTheOpen

end Scene

end Labyrinth
