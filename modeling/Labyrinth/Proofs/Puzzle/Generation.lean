/-
# What a generator makes

Whether a carved maze is fit to play depends on its sides alone.  With a side
below four all its open cells lie in one row or in one column; with both sides
four or more the cells `(1, 1)`, `(3, 1)` and `(1, 3)` are open, the goal is open
too, and a perfect maze has a way there.  So a generator succeeds with the given
seed at once, or with no seed at all (`Generator.generate_of_le`,
`Generator.generate_of_lt`).
-/

import Labyrinth.Proofs.Carving.Coverage
import Labyrinth.Proofs.Search.Shortest
import Labyrinth.Puzzle

namespace Labyrinth

namespace Maze

variable {m : Maze} {p a b : Position} {ds : List Direction} {width height : Nat}

/-! ## Small and large mazes -/

namespace Covered

/-- In a covered maze all odd cells are open. -/
theorem isOpen_of_isOdd (h : m.Covered width height) (hodd : p.IsOdd)
    (hx : 0 ≤ p.x ∧ p.x < width) (hy : 0 ≤ p.y ∧ p.y < height) : m.isOpen p := by
  have hc : ∃ c, m.get? p = some c :=
    Grid.exists_get?_iff.2 ⟨h.width_eq.symm ▸ hx, h.height_eq.symm ▸ hy⟩
  exact h.isLattice.isOpen p (h.isVisited_of_isOdd hodd hc)

/-- The open cells lie between the first and the last odd column, and between the
first and the last odd row. -/
theorem bounds_of_isOpen (h : m.Covered width height) (hp : m.isOpen p) :
    (1 ≤ p.x ∧ p.x ≤ 2 * (width / 2) - 1) ∧ (1 ≤ p.y ∧ p.y ≤ 2 * (height / 2) - 1) := by
  have hvisited : ∀ q, m.isVisited q →
      (1 ≤ q.x ∧ q.x ≤ 2 * (width / 2) - 1) ∧ (1 ≤ q.y ∧ q.y ≤ 2 * (height / 2) - 1) := by
    intro q hq
    obtain ⟨⟨hx, hy⟩, hc⟩ := h.isVisited_iff.1 hq
    have hin := Grid.exists_get?_iff.1 hc
    rw [h.width_eq, h.height_eq] at hin
    omega
  rcases h.isLattice.between p hp with hv | ⟨a, d, b, ha, ⟨hpx, hpy⟩, ⟨hbx, hby⟩, hb⟩
  · exact hvisited p hv
  · have hina := hvisited a ha
    have hinb := hvisited b hb
    omega

/-- **The maze of a covered grid is degenerate unless both sides are at least
four.** -/
theorem isDegenerate_eq_false_iff (h : m.Covered width height) (hf : m.Fits) :
    m.isDegenerate = false ↔ 4 ≤ width ∧ 4 ≤ height := by
  rw [Maze.isDegenerate_eq_false_iff h.isLaidOut hf]
  constructor
  · rintro ⟨⟨a, b, ha, hb, hx⟩, ⟨a', b', ha', hb', hy⟩⟩
    have hina := h.bounds_of_isOpen ha
    have hinb := h.bounds_of_isOpen hb
    have hina' := h.bounds_of_isOpen ha'
    have hinb' := h.bounds_of_isOpen hb'
    omega
  · rintro ⟨hw, hh⟩
    have hcell : ∀ x y : Nat, x = 1 ∨ x = 3 → y = 1 ∨ y = 3 → m.isOpen (.nearest x y) := by
      intro x y hx hy
      rcases hx with rfl | rfl <;> rcases hy with rfl | rfl <;>
        refine h.isOpen_of_isOdd ⟨rfl, rfl⟩ ⟨by decide, ?_⟩ ⟨by decide, ?_⟩ <;>
        simp only [Position.nearest, Position.clamp] <;> omega
    have h11 := hcell 1 1 (Or.inl rfl) (Or.inl rfl)
    exact ⟨⟨_, _, h11, hcell 3 1 (Or.inr rfl) (Or.inl rfl), by decide⟩,
      ⟨_, _, h11, hcell 1 3 (Or.inl rfl) (Or.inr rfl), by decide⟩⟩

end Covered

/-- A maze of walls is degenerate. -/
theorem isDegenerate_blank (hw : width ≤ 2147483647) (hh : height ≤ 2147483647) :
    (blank width height).isDegenerate = true := by
  rw [← Bool.not_eq_false, Maze.isDegenerate_eq_false_iff (isLaidOut_blank width height) ⟨hw, hh⟩]
  rintro ⟨⟨a, -, ha, -⟩, -⟩
  exact isOpen_blank width height a ha

/-- With a side below four every seed leaves a degenerate maze. -/
theorem isDegenerate_carved (hw : width ≤ 2147483647) (hh : height ≤ 2147483647)
    (h : width < 4 ∨ height < 4) (seed : String) :
    (carved width height seed).isDegenerate = true := by
  by_cases h2 : 2 ≤ width ∧ 2 ≤ height
  · have hcovered := covered_carved h2.1 h2.2 seed
    rw [← Bool.not_eq_false, hcovered.isDegenerate_eq_false_iff (hcovered.fits hw hh)]
    omega
  · rw [carved_of_lt (by omega) seed]
    exact isDegenerate_blank hw hh

/-! ## The only way -/

/-- A shortest route comes through no cell twice. -/
theorem simpleWalk_of_shortestRoute? (h : m.shortestRoute? a b = some ds) :
    m.SimpleWalk a ds b := by
  obtain ⟨hw, hleast⟩ := least_of_shortestRoute? h
  refine ⟨hw, Classical.byContradiction fun hd => ?_⟩
  obtain ⟨es, hes, hlt⟩ := hw.exists_shorter hd
  exact absurd (length_le_of_rank_le (hleast es hes)) (Nat.not_le_of_lt hlt)

/-- **In a perfect maze the route is the only way.** -/
theorem IsPerfect.exists_shortestRoute? (h : m.IsPerfect) (ha : m.isOpen a) (hb : m.isOpen b) :
    ∃ ds, m.shortestRoute? a b = some ds ∧ m.SimpleWalk a ds b ∧
      ∀ es, m.SimpleWalk a es b → es = ds := by
  obtain ⟨es, hes, hunique⟩ := h a b ha hb
  obtain ⟨ds, hds⟩ := Maze.exists_shortestRoute? hes.1
  have hsimple := simpleWalk_of_shortestRoute? hds
  refine ⟨ds, hds, hsimple, fun fs hfs => ?_⟩
  rw [hunique fs hfs, hunique ds hsimple]

end Maze

/-! ## Fit mazes -/

namespace Puzzle

variable {m : Maze} {puzzle : Puzzle} {width height : Nat}

/-- A degenerate maze makes no puzzle. -/
theorem ofMaze?_of_isDegenerate (h : m.isDegenerate = true) : ofMaze? m = none := by
  rw [ofMaze?, h, Bool.true_or, if_pos rfl]

/-- Where some cell is open, there is a place for the goal, and it is open. -/
theorem exists_goal? (hl : m.IsLaidOut) (hf : m.Fits) {p : Position} (hp : m.isOpen p) :
    ∃ goal, goal? m = some goal ∧ m.isOpen goal := by
  rw [goal?]
  split
  · rename_i hcorner
    exact ⟨_, rfl, hcorner⟩
  · obtain ⟨q, hq⟩ := Maze.exists_lastOpen? hl hf hp
    exact ⟨q, hq, Maze.isOpen_of_lastOpen? hl hf hq⟩

/-- **Which mazes are fit to play, and what is made of them.** -/
theorem ofMaze?_eq_some_iff : ofMaze? m = some puzzle ↔
    (m.isDegenerate = false ∧ m.isOpen Carving.origin) ∧
      (puzzle.maze = m ∧ puzzle.start = Carving.origin ∧ goal? m = some puzzle.goal) ∧
      ∃ ds, puzzle.solution? = some ds := by
  unfold ofMaze?
  split
  · rename_i hunfit
    rw [Bool.or_eq_true, Bool.not_eq_true'] at hunfit
    refine iff_of_false (by simp) ?_
    rintro ⟨⟨hspread, hopen⟩, -⟩
    rw [hspread, hopen] at hunfit
    simp at hunfit
  · rename_i hfit
    rw [Bool.or_eq_true, not_or, Bool.not_eq_true, Bool.not_eq_true', Bool.not_eq_false] at hfit
    constructor
    · intro h
      obtain ⟨goal, hgoal, hsolved⟩ := Option.bind_eq_some_iff.1 h
      obtain ⟨ds, hds, hpuzzle⟩ := Option.bind_eq_some_iff.1 hsolved
      obtain rfl := Option.some.inj hpuzzle
      exact ⟨hfit, ⟨rfl, rfl, hgoal⟩, ds, hds⟩
    · rintro ⟨-, ⟨rfl, hstart, hgoal⟩, ds, hds⟩
      obtain ⟨maze, start, goal⟩ := puzzle
      obtain rfl : start = Carving.origin := hstart
      exact Option.bind_eq_some_iff.2 ⟨goal, hgoal, Option.bind_eq_some_iff.2 ⟨ds, hds, rfl⟩⟩

/-- **A maze with both sides at least four is fit to play.** -/
theorem exists_ofMaze? (h : m.Covered width height) (hf : m.Fits) (hw : 4 ≤ width)
    (hh : 4 ≤ height) : ∃ goal, ofMaze? m = some ⟨m, Carving.origin, goal⟩ := by
  have hspread := (h.isDegenerate_eq_false_iff hf).2 ⟨hw, hh⟩
  have horigin := h.isLattice.isOpen _ h.isVisited_origin
  obtain ⟨goal, hgoal, hopen⟩ := exists_goal? h.isLaidOut hf horigin
  obtain ⟨ds, hds, -⟩ := h.isPerfect.exists_shortestRoute? horigin hopen
  exact ⟨goal, ofMaze?_eq_some_iff.2 ⟨⟨hspread, horigin⟩, ⟨rfl, rfl, hgoal⟩, ds, hds⟩⟩

end Puzzle

/-! ## Attempts -/

namespace Generator

variable {g : Generator} {seed : String}

/-- A generator is made for sides in range. -/
theorem create_of_fits {width height : Nat} (hw : 1 ≤ width ∧ width ≤ 2147483647)
    (hh : 1 ≤ height ∧ height ≤ 2147483647) : create width height = .ok ⟨width, height, 0⟩ := by
  rw [create, if_neg (by omega)]

/-- It is refused for all others. -/
theorem create_of_not_fits {width height : Nat}
    (h : ¬((1 ≤ width ∧ width ≤ 2147483647) ∧ (1 ≤ height ∧ height ≤ 2147483647))) :
    create width height = .error (.badDimensions width height) := by
  rw [create, if_pos (by omega)]

/-- The first attempt decides if its maze is fit. -/
theorem makeAttempts_of_attempt? {puzzle : Puzzle} {made : Nat}
    (h : g.attempt? seed made = some puzzle) (left : Nat) :
    g.makeAttempts seed made (left + 1) = (.ok puzzle, { g with attempts := made + 1 }) := by
  rw [makeAttempts, h]

/-- If no attempt gives a fit maze, all of them are made. -/
theorem makeAttempts_of_forall_attempt? (h : ∀ made, g.attempt? seed made = none)
    (made left : Nat) :
    g.makeAttempts seed made left =
      (.error (.gaveUp (made + left)), { g with attempts := made + left }) := by
  induction left generalizing made with
  | zero => rfl
  | succ left ih =>
    rw [makeAttempts, h made]
    dsimp only
    rw [ih (made + 1), Nat.add_right_comm, Nat.add_assoc]

/-- **With both sides at least four the given seed is kept.** -/
theorem generate_of_le (hw : 4 ≤ g.width ∧ g.width ≤ 2147483647)
    (hh : 4 ≤ g.height ∧ g.height ≤ 2147483647) (seed : String) :
    ∃ puzzle, Puzzle.ofMaze? (Maze.carved g.width g.height seed) = some puzzle ∧
      puzzle.maze = Maze.carved g.width g.height seed ∧
      g.generate seed = (.ok puzzle, { g with attempts := 1 }) := by
  have hcovered : (Maze.carved g.width g.height seed).Covered g.width g.height :=
    Maze.covered_carved (by omega) (by omega) seed
  obtain ⟨goal, hgoal⟩ := Puzzle.exists_ofMaze? hcovered (hcovered.fits hw.2 hh.2) hw.1 hh.1
  refine ⟨_, hgoal, rfl, ?_⟩
  have hattempt : g.attempt? seed 0 = some _ := hgoal
  rw [generate, show maxAttempts = 999 + 1 from rfl]
  exact makeAttempts_of_attempt? hattempt 999

/-- **With a side below four no seed is kept.** -/
theorem generate_of_lt (hw : g.width ≤ 2147483647) (hh : g.height ≤ 2147483647)
    (h : g.width < 4 ∨ g.height < 4) (seed : String) :
    g.generate seed = (.error (.gaveUp maxAttempts), { g with attempts := maxAttempts }) := by
  have hnone : ∀ made, g.attempt? seed made = none := fun _ =>
    Puzzle.ofMaze?_of_isDegenerate (Maze.isDegenerate_carved hw hh h _)
  rw [generate, makeAttempts_of_forall_attempt? hnone, Nat.zero_add]

end Generator

namespace Puzzle

variable {width height : Nat}

/-- A puzzle is what its generator generates. -/
theorem generate_of_create {g : Generator} (h : Generator.create width height = .ok g)
    (seed : String) : generate width height seed = (g.generate seed).1 := by
  rw [generate, h]
  show Except.bind (.ok g) _ = _
  rw [Except.bind]

/-- Sides out of range are an error of dimensions. -/
theorem generate_of_not_fits
    (h : ¬((1 ≤ width ∧ width ≤ 2147483647) ∧ (1 ≤ height ∧ height ≤ 2147483647)))
    (seed : String) : generate width height seed = .error (.badDimensions width height) := by
  rw [generate, Generator.create_of_not_fits h]
  rfl

/-- Sides in range that are too short make the generator give up. -/
theorem generate_of_lt (hw : 1 ≤ width ∧ width ≤ 2147483647)
    (hh : 1 ≤ height ∧ height ≤ 2147483647) (h : width < 4 ∨ height < 4) (seed : String) :
    generate width height seed = .error (.gaveUp Generator.maxAttempts) := by
  rw [generate_of_create (Generator.create_of_fits hw hh),
    Generator.generate_of_lt hw.2 hh.2 h]

/-- **Sides from four on make a puzzle at the first attempt.** -/
theorem generate_of_le (hw : 4 ≤ width ∧ width ≤ 2147483647)
    (hh : 4 ≤ height ∧ height ≤ 2147483647) (seed : String) :
    ∃ g puzzle, Generator.create width height = .ok g ∧
      g.generate seed = (.ok puzzle, { g with attempts := 1 }) ∧
      generate width height seed = .ok puzzle ∧
      ofMaze? (Maze.carved width height seed) = some puzzle ∧
      puzzle.maze = Maze.carved width height seed := by
  let g : Generator := ⟨width, height, 0⟩
  have hcreate : Generator.create width height = .ok g :=
    Generator.create_of_fits ⟨by omega, hw.2⟩ ⟨by omega, hh.2⟩
  obtain ⟨puzzle, hmaze, hcarved, hg⟩ := Generator.generate_of_le (g := g) hw hh seed
  refine ⟨g, puzzle, hcreate, hg, ?_, hmaze, hcarved⟩
  rw [generate_of_create hcreate, hg]

/-- **The sides decide.**  Whatever the seed, sides that are zero or out of range
are refused, smaller grids than four by four are given up after 1000 attempts,
and in every other grid the maze of the given seed itself is kept.  The same goes
for a generator whose sides were changed, zero included, whatever it made
before. -/
theorem generate_outcome (width height : Nat) (seed : String) :
    (generate width height seed = .error (.badDimensions width height) ↔
      width = 0 ∨ height = 0 ∨ 2147483647 < width ∨ 2147483647 < height) ∧
    (generate width height seed = .error (.gaveUp 1000) ↔
      (1 ≤ width ∧ width ≤ 2147483647) ∧ (1 ≤ height ∧ height ≤ 2147483647) ∧
        (width < 4 ∨ height < 4)) ∧
    ((4 ≤ width ∧ width ≤ 2147483647) ∧ (4 ≤ height ∧ height ≤ 2147483647) →
      ∃ g puzzle, Generator.create width height = .ok g ∧
        g.generate seed = (.ok puzzle, { g with attempts := 1 }) ∧
        generate width height seed = .ok puzzle ∧
        ofMaze? (Maze.carved width height seed) = some puzzle) ∧
    ∀ g : Generator, g.width ≤ 2147483647 → g.height ≤ 2147483647 →
      (4 ≤ g.width ∧ 4 ≤ g.height → ∃ puzzle,
        g.generate seed = (.ok puzzle, { g with attempts := 1 }) ∧
        ofMaze? (Maze.carved g.width g.height seed) = some puzzle) ∧
      (¬(4 ≤ g.width ∧ 4 ≤ g.height) →
        g.generate seed = (.error (.gaveUp 1000), { g with attempts := 1000 })) := by
  have hfour : (4 ≤ width ∧ width ≤ 2147483647) ∧ (4 ≤ height ∧ height ≤ 2147483647) →
      ∀ e, generate width height seed ≠ .error e := by
    rintro ⟨hw, hh⟩ e he
    obtain ⟨g, puzzle, -, -, hpuzzle, -⟩ := generate_of_le hw hh seed
    rw [hpuzzle] at he
    cases he
  refine ⟨⟨fun h => ?_, fun h => generate_of_not_fits (by omega) seed⟩,
    ⟨fun h => ?_, fun ⟨hw, hh, hlt⟩ => generate_of_lt hw hh hlt seed⟩, fun ⟨hw, hh⟩ => ?_,
    fun g hw hh => ⟨fun ⟨hw4, hh4⟩ => ?_, fun hlt => ?_⟩⟩
  · refine Classical.byContradiction fun hfits => ?_
    by_cases hlt : width < 4 ∨ height < 4
    · rw [generate_of_lt (by omega) (by omega) hlt] at h
      cases h
    · exact hfour (by omega) _ h
  · by_cases hfits : (1 ≤ width ∧ width ≤ 2147483647) ∧ (1 ≤ height ∧ height ≤ 2147483647)
    · exact ⟨hfits.1, hfits.2, Classical.byContradiction fun hlt => hfour (by omega) _ h⟩
    · rw [generate_of_not_fits hfits] at h
      cases h
  · obtain ⟨g, puzzle, hcreate, hg, hpuzzle, hmaze, -⟩ := generate_of_le hw hh seed
    exact ⟨g, puzzle, hcreate, hg, hpuzzle, hmaze⟩
  · obtain ⟨puzzle, hmaze, -, hg⟩ := Generator.generate_of_le ⟨hw4, hw⟩ ⟨hh4, hh⟩ seed
    exact ⟨puzzle, hg, hmaze⟩
  · exact Generator.generate_of_lt hw hh (by omega) seed

/-- A side zero, a side of three, and a generator that had made twelve attempts
before its width was set to seven, or to zero. -/
theorem generate_outcome_samples :
    generate 0 5 "maze" = .error (.badDimensions 0 5) ∧
    generate 3 9 "maze" = .error (.gaveUp 1000) ∧
    (∃ puzzle, generate 5 4 "maze" = .ok puzzle) ∧
    (∃ puzzle, (⟨7, 4, 12⟩ : Generator).generate "maze" = (.ok puzzle, ⟨7, 4, 1⟩)) ∧
    (⟨0, 4, 12⟩ : Generator).generate "maze" = (.error (.gaveUp 1000), ⟨0, 4, 1000⟩) := by
  refine ⟨?_, ?_, ?_, ?_, ?_⟩
  · exact (generate_outcome 0 5 "maze").1.2 (Or.inl rfl)
  · exact (generate_outcome 3 9 "maze").2.1.2 (by decide)
  · obtain ⟨g, puzzle, -, -, hpuzzle, -⟩ := (generate_outcome 5 4 "maze").2.2.1 (by decide)
    exact ⟨puzzle, hpuzzle⟩
  · obtain ⟨puzzle, hg, -⟩ := ((generate_outcome 7 4 "maze").2.2.2 ⟨7, 4, 12⟩ (by decide)
      (by decide)).1 (by decide)
    exact ⟨puzzle, hg⟩
  · exact ((generate_outcome 0 4 "maze").2.2.2 ⟨0, 4, 12⟩ (by decide) (by decide)).2 (by decide)

/-- **Generated mazes are perfect.**  Whatever the seed, between any two open cells
of the maze there is exactly one walk that comes through no cell twice, and the
route between them is this walk.  The open cells, which the maze lists once each,
are two for every second column and every second row, less one. -/
theorem generate_isPerfect {width height : Nat} (hw : 4 ≤ width ∧ width ≤ 2147483647)
    (hh : 4 ≤ height ∧ height ≤ 2147483647) (seed : String) :
    ∃ puzzle, generate width height seed = .ok puzzle ∧
      (∀ a b, puzzle.maze.isOpen a → puzzle.maze.isOpen b →
        ∃ ds, puzzle.maze.shortestRoute? a b = some ds ∧ puzzle.maze.SimpleWalk a ds b ∧
          ∀ es, puzzle.maze.SimpleWalk a es b → es = ds) ∧
      (∀ p, p ∈ puzzle.maze.openCells ↔ puzzle.maze.isOpen p) ∧ puzzle.maze.openCells.Nodup ∧
      puzzle.maze.openCells.length = 2 * (width / 2) * (height / 2) - 1 := by
  obtain ⟨g, puzzle, -, -, hpuzzle, -, hcarved⟩ := generate_of_le hw hh seed
  have hcovered : (Maze.carved width height seed).Covered width height :=
    Maze.covered_carved (by omega) (by omega) seed
  have hfits := hcovered.fits hw.2 hh.2
  rw [← hcarved] at hcovered hfits
  refine ⟨puzzle, hpuzzle, fun a b ha hb => hcovered.isPerfect.exists_shortestRoute? ha hb,
    fun p => Maze.mem_openCells_iff hcovered.isLaidOut hfits,
    Maze.nodup_openCells hcovered.isLaidOut hfits, ?_⟩
  rw [Nat.mul_assoc, ← hcovered.length_openCells hfits, Nat.add_sub_cancel]

/-- In a maze of five by four cells seven are open, and one way leads from the
upper left to the lower right. -/
theorem generate_isPerfect_five_by_four :
    ∃ puzzle, generate 5 4 "maze" = .ok puzzle ∧ puzzle.maze.openCells.length = 7 ∧
      ∃ ds, puzzle.maze.shortestRoute? (.nearest 1 1) (.nearest 3 3) = some ds ∧
        ∀ es, puzzle.maze.SimpleWalk (.nearest 1 1) es (.nearest 3 3) → es = ds := by
  obtain ⟨puzzle, hpuzzle, hways, -, -, hlength⟩ :=
    @generate_isPerfect 5 4 (by decide) (by decide) "maze"
  have hopen : (generate 5 4 "maze").toOption.all (fun puzzle =>
      puzzle.maze.isOpen (.nearest 1 1) && puzzle.maze.isOpen (.nearest 3 3)) = true := by
    decide +kernel
  rw [hpuzzle, Except.toOption, Option.all_some, Bool.and_eq_true] at hopen
  obtain ⟨ds, hds, -, hunique⟩ := hways _ _ hopen.1 hopen.2
  exact ⟨puzzle, hpuzzle, hlength, ds, hds, hunique⟩

end Puzzle

end Labyrinth
