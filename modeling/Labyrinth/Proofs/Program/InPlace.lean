/-
# Programs changed in place

The functions on programs make a new program of an old one, so a request that is
refused has nothing to leave behind.  A program that is changed in place, one
assignment after the other, could be left half changed: a block is taken out before
it is put back, and the blocks are changed before the lists of edits.  Here each
change is made in that way and says what it answers (`Program.InPlace.reorder`).  The
answers and the programs are those of the functions (`Program.InPlace.run_reorder`).
-/

import Labyrinth.Proofs.Program.Edits

namespace Labyrinth
namespace Program
namespace InPlace

/-- Stores an edit that can be undone, and forgets what could be redone. -/
def record (e : Edit) : StateM Program Unit := do
  modify fun p => { p with undoList := e :: p.undoList }
  modify fun p => { p with redoList := [] }

/-- Adds a block at the end. -/
def push (block : Direction) : StateM Program Unit := do
  let index := (← get).blocks.length
  modify fun p => { p with blocks := p.blocks ++ [block] }
  record (.insert index block)

/-- Takes the block at an index out, if there is one. -/
def remove (index : Nat) : StateM Program (Option Direction) := do
  match (← get).blocks[index]? with
  | none => return none
  | some block =>
    modify fun p => { p with blocks := p.blocks.eraseIdx index }
    record (.remove index block)
    return some block

/-- Takes a block out and puts it back at another index, if both indexes have a
block, and says whether they have. -/
def moveBlock (source target : Nat) : StateM Program Bool := do
  let blocks := (← get).blocks
  if h : source < blocks.length ∧ target < blocks.length then
    modify fun p => { p with blocks := p.blocks.eraseIdx source }
    modify fun p => { p with blocks := p.blocks.insertIdx target (blocks.get ⟨source, h.1⟩) }
    return true
  else
    return false

/-- Moves a block, and stores the move unless it leads back to the same index. -/
def reorder (source target : Nat) : StateM Program Bool := do
  if ← moveBlock source target then
    if source ≠ target then
      record (.reorder source target)
    return true
  else
    return false

/-- Takes all blocks out, if there are any. -/
def clear : StateM Program Unit := do
  let blocks := (← get).blocks
  if !blocks.isEmpty then
    modify fun p => { p with blocks := [] }
    record (.clear blocks)

/-- Adding a block in place is adding it. -/
theorem push_eq_modify (block : Direction) : push block = modify (Program.push · block) := by
  refine StateT.ext fun p => ?_
  show ((), Program.mk _ _ _) = ((), p.push block)
  rw [Program.push, perform, Edit.apply, length, List.insertIdx_length_self]

/-- Removing in place leaves a program without the block as it was. -/
theorem run_remove (index : Nat) (p : Program) :
    (remove index).run p =
      match p.remove? index with
      | some (block, p') => (some block, p')
      | none => (none, p) := by
  rw [remove?]
  simp only [remove, StateT.run_bind, StateT.run_get, pure_bind]
  cases p.blocks[index]? <;> rfl

/-- Moving in place sets the blocks if both places exist. -/
theorem run_moveBlock (source target : Nat) (p : Program) :
    (moveBlock source target).run p =
      match moveBlock? p.blocks source target with
      | some blocks => (true, { p with blocks })
      | none => (false, p) := by
  rw [moveBlock?]
  simp only [moveBlock, StateT.run_bind, StateT.run_get, pure_bind]
  by_cases h : source < p.blocks.length ∧ target < p.blocks.length
  · rw [dif_pos h, dif_pos h]
    rfl
  · rw [dif_neg h, dif_neg h]
    rfl

/-- Reordering in place does it, or nothing. -/
theorem run_reorder (source target : Nat) (p : Program) :
    (reorder source target).run p =
      match p.reorder? source target with
      | some p' => (true, p')
      | none => (false, p) := by
  rw [reorder?, reorder, StateT.run_bind, run_moveBlock]
  cases hmoved : moveBlock? p.blocks source target with
  | none => rfl
  | some moved =>
    rw [Option.map_some]
    by_cases hsame : source = target
    · -- the block went out and in again at its own index
      subst hsame
      rw [eq_of_moveBlock?_self hmoved]
      simp only [ne_eq, not_true_eq_false, if_false]
      rfl
    · simp only [ne_eq, hsame, not_false_eq_true, if_true, if_false, perform, Edit.apply, hmoved,
        Option.getD_some]
      rfl

/-- Clearing in place is clearing. -/
theorem clear_eq_modify : clear = modify Program.clear := by
  refine StateT.ext fun p => ?_
  simp only [clear, StateT.run_bind, StateT.run_get, pure_bind, StateT.run_modify, Program.clear]
  cases hempty : p.isEmpty with
  | true | false =>
    rw [isEmpty] at hempty
    simp only [hempty]
    rfl

end InPlace
end Program

end Labyrinth
