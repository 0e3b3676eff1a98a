/-
# Edits can be taken back

An edit keeps what is needed to take it back, but its indexes only mean something
on the blocks that it was made on.  An edit *fits* blocks if its indexes are in
range there and the blocks that it takes out are the ones that it names
(`Edit.Fits`).  A fitting edit leads from the blocks before to the blocks after
and back again, and every insertion and removal on either way is in range
(`Edit.Fits.joins`).
-/

import Labyrinth.Program
import Mathlib.Data.List.InsertIdx

namespace Labyrinth

variable {blocks moved : List Direction} {i j : Nat} {e : Edit}

/-! ## Moving a block -/

/-- A block is moved if both places exist: it is taken out and put in again. -/
theorem moveBlock?_eq_some_iff :
    moveBlock? blocks i j = some moved ↔
      ∃ h : i < blocks.length, j < blocks.length ∧
        (blocks.eraseIdx i).insertIdx j blocks[i] = moved := by
  unfold moveBlock?
  split
  · rename_i h
    exact ⟨fun hm => ⟨h.1, h.2, Option.some.inj hm⟩, fun ⟨_, _, hm⟩ => congrArg some hm⟩
  · rename_i h
    constructor
    · intro hm
      cases hm
    · rintro ⟨hi, hj, -⟩
      exact absurd ⟨hi, hj⟩ h

/-- A move keeps the number of blocks. -/
theorem length_moveBlock? (h : moveBlock? blocks i j = some moved) :
    moved.length = blocks.length := by
  obtain ⟨hi, hj, rfl⟩ := moveBlock?_eq_some_iff.1 h
  have herase := List.length_eraseIdx_of_lt hi
  rw [List.length_insertIdx_of_le_length (by omega)]
  omega

/-- A block that is put back at its own index leaves the blocks as they were. -/
theorem eq_of_moveBlock?_self (h : moveBlock? blocks i i = some moved) : moved = blocks := by
  obtain ⟨hi, -, rfl⟩ := moveBlock?_eq_some_iff.1 h
  exact List.insertIdx_eraseIdx_getElem hi

/-- **A move is taken back by the opposite move.** -/
theorem moveBlock?_back (h : moveBlock? blocks i j = some moved) :
    moveBlock? moved j i = some blocks := by
  have hlength := length_moveBlock? h
  obtain ⟨hi, hj, rfl⟩ := moveBlock?_eq_some_iff.1 h
  refine moveBlock?_eq_some_iff.2 ⟨by omega, by omega, ?_⟩
  rw [List.eraseIdx_insertIdx_self, List.getElem_insertIdx_self,
    List.insertIdx_eraseIdx_getElem hi]

namespace Edit

/-! ## Ranges -/

/-- Making the change inserts and removes blocks within the range of the list. -/
def InRange (blocks : List Direction) : Edit → Prop
  | insert index _ => index ≤ blocks.length
  | remove index _ => index < blocks.length
  | reorder source target =>
    source < blocks.length ∧ target ≤ (blocks.eraseIdx source).length
  | clear _ => True

/-- Taking the change back inserts and removes blocks within the range of the
list. -/
def RevertInRange (blocks : List Direction) : Edit → Prop
  | insert index _ => index < blocks.length
  | remove index _ => index ≤ blocks.length
  | reorder source target =>
    target < blocks.length ∧ source ≤ (blocks.eraseIdx target).length
  | clear _ => True

/-! ## Fitting edits -/

/-- The change can be made on these blocks, and it names the blocks that it takes
out. -/
def Fits (blocks : List Direction) : Edit → Prop
  | insert index _ => index ≤ blocks.length
  | remove index block => blocks[index]? = some block
  | reorder source target => (moveBlock? blocks source target).isSome
  | clear old => old = blocks

/-- The change leads from one list of blocks to another and back, and stays in
range on both ways. -/
structure Joins (e : Edit) (before after : List Direction) : Prop where
  apply_eq : e.apply before = after
  revert_eq : e.revert after = before
  inRange : e.InRange before
  revertInRange : e.RevertInRange after

/-- **A fitting change can be made and taken back.** -/
theorem Fits.joins (h : e.Fits blocks) : e.Joins blocks (e.apply blocks) := by
  cases e with
  | insert index block =>
    have hlength : (blocks.insertIdx index block).length = blocks.length + 1 :=
      List.length_insertIdx_of_le_length h block
    refine ⟨rfl, List.eraseIdx_insertIdx_self .., h, ?_⟩
    rw [apply, RevertInRange, hlength]
    exact Nat.lt_succ_of_le h
  | remove index block =>
    obtain ⟨hi, hblock⟩ := List.getElem?_eq_some_iff.1 h
    have hlength := List.length_eraseIdx_of_lt hi
    refine ⟨rfl, ?_, hi, ?_⟩
    · rw [apply, revert, ← hblock, List.insertIdx_eraseIdx_getElem hi]
    · rw [apply, RevertInRange, hlength]
      omega
  | reorder source target =>
    obtain ⟨moved, hm⟩ := Option.isSome_iff_exists.1 h
    obtain ⟨hs, ht, -⟩ := moveBlock?_eq_some_iff.1 hm
    have hlength := length_moveBlock? hm
    refine ⟨rfl, ?_, ⟨hs, ?_⟩, ?_⟩
    · rw [apply, hm, Option.getD_some, revert, moveBlock?_back hm, Option.getD_some]
    · rw [List.length_eraseIdx_of_lt hs]
      omega
    · rw [apply, hm, Option.getD_some]
      refine ⟨by omega, ?_⟩
      rw [List.length_eraseIdx_of_lt (by omega)]
      omega
  | clear old =>
    obtain rfl : old = blocks := h
    exact ⟨rfl, rfl, trivial, trivial⟩

end Edit

end Labyrinth
