/-
# Programs

A program is the list of moves that a player puts together.  Every change that
is made leaves an edit, and the edits carry the undo and the redo list: undoing
takes the last edit back, redoing makes it again, and a new change forgets what
could be redone.
-/

import Labyrinth.Direction

namespace Labyrinth

/-- Takes the block at index `i` out and puts it back at index `j`, if both
indexes have a block. -/
def moveBlock? (blocks : List Direction) (i j : Nat) : Option (List Direction) :=
  if h : i < blocks.length ∧ j < blocks.length then
    some ((blocks.eraseIdx i).insertIdx j blocks[i])
  else none

/-- A change of a program, with what is needed to take it back. -/
inductive Edit
  /-- A block was put in at an index. -/
  | insert (index : Nat) (block : Direction)
  /-- The block at an index was taken out. -/
  | remove (index : Nat) (block : Direction)
  /-- The block at an index was moved to another. -/
  | reorder (source target : Nat)
  /-- All blocks were taken out. -/
  | clear (blocks : List Direction)
deriving DecidableEq, Repr

namespace Edit

/-- Makes the change. -/
def apply (blocks : List Direction) : Edit → List Direction
  | insert index block => blocks.insertIdx index block
  | remove index _ => blocks.eraseIdx index
  | reorder source target => (moveBlock? blocks source target).getD blocks
  | clear _ => []

/-- Takes the change back. -/
def revert (blocks : List Direction) : Edit → List Direction
  | insert index _ => blocks.eraseIdx index
  | remove index block => blocks.insertIdx index block
  | reorder source target => (moveBlock? blocks target source).getD blocks
  | clear old => old

end Edit

/-- The blocks of a program in the order in which they run, with the edits that
can be undone and redone, the latest first. -/
structure Program where
  blocks : List Direction
  undoList : List Edit
  redoList : List Edit
deriving DecidableEq, Repr

namespace Program

/-- The program with the given blocks and no history. -/
def ofBlocks (blocks : List Direction) : Program := ⟨blocks, [], []⟩

/-- The program without blocks. -/
def empty : Program := ofBlocks []

/-- The number of blocks. -/
def length (p : Program) : Nat := p.blocks.length

/-- Whether there is no block. -/
def isEmpty (p : Program) : Bool := p.blocks.isEmpty

/-- Makes a change that can be undone. -/
def perform (p : Program) (e : Edit) : Program := ⟨e.apply p.blocks, e :: p.undoList, []⟩

/-- Adds a block at the end. -/
def push (p : Program) (block : Direction) : Program := p.perform (.insert p.length block)

/-- Puts a block in at an index up to the length. -/
def insert? (p : Program) (index : Nat) (block : Direction) : Option Program :=
  if index ≤ p.length then some (p.perform (.insert index block)) else none

/-- Takes the block at an index out. -/
def remove? (p : Program) (index : Nat) : Option (Direction × Program) :=
  p.blocks[index]?.map fun block => (block, p.perform (.remove index block))

/-- Moves the block at `source` to `target`, if both indexes have a block.  A
block moved to its own place leaves no edit. -/
def reorder? (p : Program) (source target : Nat) : Option Program :=
  (moveBlock? p.blocks source target).map fun _ =>
    if source = target then p else p.perform (.reorder source target)

/-- Takes all blocks out.  Nothing happens to an empty program. -/
def clear (p : Program) : Program := if p.isEmpty then p else p.perform (.clear p.blocks)

/-- Takes the last change back. -/
def undo (p : Program) : Program :=
  match p.undoList with
  | [] => p
  | e :: undoList => ⟨e.revert p.blocks, undoList, e :: p.redoList⟩

/-- Makes the last change that was taken back again. -/
def redo (p : Program) : Program :=
  match p.redoList with
  | [] => p
  | e :: redoList => ⟨e.apply p.blocks, e :: p.undoList, redoList⟩

end Program

end Labyrinth
