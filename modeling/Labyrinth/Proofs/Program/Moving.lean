/-
# Moving one block

A block is moved by taking it out and putting it back, and taking it out shifts the
blocks behind it before it is put back.  The target is an index of the blocks as they
are afterwards: there the moved block is found (`getElem?_moveBlock?`), whether it went
to the left, to the right or to the last place.  Without it, the blocks before and the
blocks after are the same (`eraseIdx_moveBlock?`), so no other block is lost, doubled
or overtaken by another.

A program that moves a block in place does all this or nothing
(`Program.reorder_moves_one_block`).
-/

import Labyrinth.Proofs.Program.History
import Labyrinth.Proofs.Program.InPlace
import Mathlib.Data.List.Perm.Basic

namespace Labyrinth

variable {blocks moved : List Direction} {source target : Nat} {p p' : Program}

/-! ## Blocks -/

/-- A block can be moved exactly if both places exist. -/
theorem isSome_moveBlock?_iff :
    (moveBlock? blocks source target).isSome ↔ source < blocks.length ∧ target < blocks.length := by
  rw [Option.isSome_iff_exists]
  simp only [moveBlock?_eq_some_iff]
  constructor
  · rintro ⟨_, hsource, htarget, -⟩
    exact ⟨hsource, htarget⟩
  · rintro ⟨hsource, htarget⟩
    exact ⟨_, hsource, htarget, rfl⟩

/-- **The block that is moved ends up at the target.** -/
theorem getElem?_moveBlock? (h : moveBlock? blocks source target = some moved) :
    moved[target]? = blocks[source]? := by
  obtain ⟨hsource, htarget, rfl⟩ := moveBlock?_eq_some_iff.1 h
  have hlength := List.length_eraseIdx_of_lt hsource
  rw [List.getElem?_insertIdx_self, if_pos (by omega), List.getElem?_eq_getElem hsource]

/-- **The other blocks stay as they are**, in their order. -/
theorem eraseIdx_moveBlock? (h : moveBlock? blocks source target = some moved) :
    moved.eraseIdx target = blocks.eraseIdx source := by
  obtain ⟨_, _, rfl⟩ := moveBlock?_eq_some_iff.1 h
  exact List.eraseIdx_insertIdx_self ..

/-- A move loses no block and adds none. -/
theorem perm_moveBlock? (h : moveBlock? blocks source target = some moved) :
    moved.Perm blocks := by
  have hlength := length_moveBlock? h
  have hblock := getElem?_moveBlock? h
  obtain ⟨hsource, htarget, -⟩ := moveBlock?_eq_some_iff.1 h
  have htarget' : target < moved.length := by omega
  rw [List.getElem?_eq_getElem hsource, List.getElem?_eq_getElem htarget', Option.some.injEq]
    at hblock
  calc
    moved.Perm (moved[target] :: moved.eraseIdx target) :=
      (List.getElem_cons_eraseIdx_perm htarget').symm
    _ = blocks[source] :: blocks.eraseIdx source := by rw [hblock, eraseIdx_moveBlock? h]
    List.Perm _ blocks := List.getElem_cons_eraseIdx_perm hsource

/-! ## Programs -/

namespace Program

/-- A program moves its blocks also where source and target are the same and it
leaves no edit. -/
theorem map_blocks_reorder? (p : Program) (source target : Nat) :
    (p.reorder? source target).map (·.blocks) = moveBlock? p.blocks source target := by
  rw [reorder?, Option.map_map]
  cases hmoved : moveBlock? p.blocks source target with
  | none => rfl
  | some moved =>
    rw [Option.map_some, Function.comp_apply]
    by_cases hsame : source = target
    · subst hsame
      rw [if_pos rfl, eq_of_moveBlock?_self hmoved]
    · rw [if_neg hsame, perform, Edit.apply, hmoved, Option.getD_some]

/-- What is reordered has its blocks moved. -/
theorem moveBlock?_of_reorder? (h : p.reorder? source target = some p') :
    moveBlock? p.blocks source target = some p'.blocks := by
  rw [← map_blocks_reorder?, h, Option.map_some]

/-- A program is reordered exactly if both places exist. -/
theorem isSome_reorder?_iff : (p.reorder? source target).isSome ↔
    source < p.blocks.length ∧ target < p.blocks.length := by
  rw [← isSome_moveBlock?_iff, ← map_blocks_reorder?, Option.isSome_map]

/-- The opposite request is accepted and leads back to the blocks before. -/
theorem exists_reorder?_back (h : p.reorder? source target = some p') :
    ∃ back, p'.reorder? target source = some back ∧ back.blocks = p.blocks := by
  have hback := moveBlock?_back (moveBlock?_of_reorder? h)
  rw [← map_blocks_reorder?] at hback
  exact Option.map_eq_some_iff.1 hback

/-- **A program moves one block, or nothing.**  Let a program be changed in place by a
request to move the block at `source` to `target`; it answers whether it was accepted.
It is accepted exactly if both are indexes of blocks.  Then the block from `source` is
at `target`, the blocks without it are the same as before, so that altogether they are
the same blocks, and the opposite request is accepted and leads back to the blocks
before.  Otherwise the program is left as it was, with its blocks and both of its
lists. -/
theorem reorder_moves_one_block (p : Program) (source target : Nat) :
    let r : Bool × Program := (InPlace.reorder source target).run p
    p.operate (.reorder source target) = (.accepted r.1, r.2) ∧
    (r.1 = true ↔ source < p.blocks.length ∧ target < p.blocks.length) ∧
    (r.1 = true →
      r.2.blocks[target]? = p.blocks[source]? ∧
        r.2.blocks.eraseIdx target = p.blocks.eraseIdx source ∧
        r.2.blocks.Perm p.blocks ∧
        ∃ back, (InPlace.reorder target source).run r.2 = (true, back) ∧
          back.blocks = p.blocks) ∧
    (r.1 = false → r.2 = p) := by
  intro r
  have hr : r = _ := InPlace.run_reorder source target p
  have hiff := @isSome_reorder?_iff source target p
  cases hmoved : p.reorder? source target with
  | none =>
    rw [hmoved] at hr hiff
    rw [← hiff, hr, operate, hmoved]
    exact ⟨rfl, Iff.rfl, fun hno => absurd hno Bool.false_ne_true, fun _ => rfl⟩
  | some p' =>
    have hblocks := moveBlock?_of_reorder? hmoved
    obtain ⟨back, hback, hbefore⟩ := exists_reorder?_back hmoved
    have hrun := InPlace.run_reorder target source p'
    rw [hback] at hrun
    rw [hmoved] at hr hiff
    rw [← hiff, hr, operate, hmoved]
    exact ⟨rfl, Iff.rfl, fun _ => ⟨getElem?_moveBlock? hblocks, eraseIdx_moveBlock? hblocks,
      perm_moveBlock? hblocks, back, hrun, hbefore⟩, fun hno => absurd hno.symm Bool.false_ne_true⟩

/-- Of four blocks the first goes to the third place and back; there is no fifth. -/
theorem reorder_moves_one_block_of_four :
    let p := ofBlocks [.up, .down, .left, .right]
    (∃ p', (InPlace.reorder 0 2).run p = (true, p') ∧ p'.blocks = [.down, .left, .up, .right] ∧
      p'.blocks.eraseIdx 2 = [.down, .left, .right] ∧
      ∃ back, (InPlace.reorder 2 0).run p' = (true, back) ∧ back.blocks = p.blocks) ∧
    ((InPlace.reorder 1 4).run p).2 = p := by
  intro p
  obtain ⟨-, -, hmoved, -⟩ := reorder_moves_one_block p 0 2
  obtain ⟨-, -, -, hleft⟩ := reorder_moves_one_block p 1 4
  obtain ⟨-, herase, -, hback⟩ := hmoved (by decide)
  exact ⟨⟨_, rfl, by decide, herase, hback⟩, hleft (by decide)⟩

end Program
end Labyrinth
