/-
# Seeds that make the same puzzles

A draw looks at the register modulo the modulus only, so two registers that are
congruent are the same after one draw (`Lcg.advance_congr`).  Carving never looks
at a register before its first draw: it enters the first cell, and shuffles the
directions there.  So seeds whose hashes are congruent carve the same mazes
(`Maze.carved_congr`).

The seeds of further attempts are other texts, and their hashes need not be
congruent.  But they decide nothing, since the sides alone say whether the first
attempt is kept (`Puzzle.generate_eq_of_modEq`).
-/

import Mathlib.Data.Int.ModEq
import Labyrinth.Proofs.Puzzle.Generation

namespace Labyrinth

namespace Lcg

variable {α : Type} {n : Nat} {g g' : Lcg}

/-- **One draw makes congruent registers equal**, whatever their signs. -/
theorem advance_congr (h : g.register ≡ g'.register [ZMOD modulus]) :
    g.advance = g'.advance := by
  have hnext : g.register * multiplier + increment ≡ g'.register * multiplier + increment
      [ZMOD modulus] := (h.mul_right multiplier).add_right increment
  rw [advance, advance, hnext.eq]

/-- Settling a place begins with a draw, and sees nothing of the register before. -/
theorem settle_congr (h : g.advance = g'.advance) (i : Nat) (hi : i + 1 < n)
    (items : Vector α n) : settle (i + 1) hi items g = settle (i + 1) hi items g' := by
  simp only [settle, h]

/-- So does a shuffle of two items or more. -/
theorem shuffle_congr (h : g.advance = g'.advance) (items : Vector α (n + 2)) :
    shuffle items g = shuffle items g' :=
  settle_congr h n _ items

end Lcg

namespace Carving

variable {random random' : Lcg}

/-- Entering a cell does not see more of the generator than its next register. -/
theorem enter_congr (h : random.advance = random'.advance) (maze : Maze) (stack : List Frame)
    (p : Position) : enter maze random stack p = enter maze random' stack p := by
  rw [enter, enter, Lcg.shuffle_congr h]

end Carving

variable {seed seed' : String}

/-- **Seeds with congruent hashes carve the same mazes**, the marks of the entered
cells included. -/
theorem Maze.carved_congr (h : textHash seed ≡ textHash seed' [ZMOD Lcg.modulus])
    (width height : Nat) : carved width height seed = carved width height seed' := by
  have hdraw : (Lcg.ofSeed seed).advance = (Lcg.ofSeed seed').advance := Lcg.advance_congr h
  cases horigin : (blank width height).get? Carving.origin with
  | none =>
    rw [Carving.carved_of_get?_eq_none horigin, Carving.carved_of_get?_eq_none horigin]
  | some _ =>
    rw [carved, carved, Carving.start, Carving.start, horigin]
    exact congrArg (fun c => (Carving.run c).maze) (Carving.enter_congr hdraw _ _ _)

namespace Generator

/-- **A generator makes the same puzzle of both seeds**, or gives up on both after
as many attempts. -/
theorem generate_congr {g : Generator} (hw : g.width ≤ 2147483647) (hh : g.height ≤ 2147483647)
    (h : textHash seed ≡ textHash seed' [ZMOD Lcg.modulus]) :
    g.generate seed = g.generate seed' := by
  by_cases hfour : 4 ≤ g.width ∧ 4 ≤ g.height
  · obtain ⟨puzzle, hpuzzle, -, hg⟩ := generate_of_le ⟨hfour.1, hw⟩ ⟨hfour.2, hh⟩ seed
    obtain ⟨puzzle', hpuzzle', -, hg'⟩ := generate_of_le ⟨hfour.1, hw⟩ ⟨hfour.2, hh⟩ seed'
    rw [Maze.carved_congr h, hpuzzle', Option.some.injEq] at hpuzzle
    rw [hg, hg', hpuzzle]
  · -- no attempt is kept, whatever the seeds of the further attempts
    have hlt : g.width < 4 ∨ g.height < 4 := by omega
    rw [generate_of_lt hw hh hlt, generate_of_lt hw hh hlt]

end Generator

namespace Puzzle

/-- **The hash of a seed modulo 233280 says all about its puzzles.**  Take two seeds
whose 32-bit hashes are congruent modulo 233280, of whatever signs.  Then for all
sides both give the same result: the same error, or puzzles with the same maze, the
marks of carving included, the same start and the same goal.  A generator, whatever
it made before, also makes as many attempts with one as with the other. -/
theorem generate_eq_of_modEq (h : textHash seed ≡ textHash seed' [ZMOD 233280])
    (width height : Nat) :
    generate width height seed = generate width height seed' ∧
      ∀ g : Generator, g.width ≤ 2147483647 → g.height ≤ 2147483647 →
        g.generate seed = g.generate seed' := by
  refine ⟨?_, fun g hw hh => Generator.generate_congr hw hh h⟩
  by_cases hfits : (1 ≤ width ∧ width ≤ 2147483647) ∧ (1 ≤ height ∧ height ≤ 2147483647)
  · have hcreate := Generator.create_of_fits hfits.1 hfits.2
    rw [generate_of_create hcreate, generate_of_create hcreate,
      Generator.generate_congr hfits.1.2 hfits.2.2 h]
  · rw [generate_of_not_fits hfits, generate_of_not_fits hfits]

/-- Two seeds with different hashes, one of them negative, and one puzzle. -/
theorem generate_eq_of_modEq_zzzzzzzz :
    textHash "zzzzzzzz" = -1910022912 ∧ textHash "tvvt" = 3572928 ∧
      (∃ puzzle, generate 9 8 "zzzzzzzz" = .ok puzzle ∧ generate 9 8 "tvvt" = .ok puzzle) ∧
      (⟨9, 3, 8⟩ : Generator).generate "zzzzzzzz" = (⟨9, 3, 8⟩ : Generator).generate "tvvt" := by
  have hz : textHash "zzzzzzzz" = -1910022912 := by decide +kernel
  have ht : textHash "tvvt" = 3572928 := by decide +kernel
  have hcongr : textHash "zzzzzzzz" ≡ textHash "tvvt" [ZMOD 233280] := by
    rw [hz, ht]
    decide
  obtain ⟨-, puzzle, -, -, hpuzzle, -⟩ :=
    @generate_of_le 9 8 (by decide) (by decide) "zzzzzzzz"
  obtain ⟨hgenerate, hgenerator⟩ := generate_eq_of_modEq hcongr 9 8
  exact ⟨hz, ht, ⟨puzzle, hpuzzle, hgenerate ▸ hpuzzle⟩,
    hgenerator ⟨9, 3, 8⟩ (by decide) (by decide)⟩

end Puzzle

end Labyrinth
