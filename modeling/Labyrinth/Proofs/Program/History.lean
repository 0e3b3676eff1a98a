/-
# Undo and redo as a history of snapshots

A program keeps edits, and their indexes only mean something on the blocks that
they were made on.  The reference here keeps the blocks themselves: a history is
the current blocks between the snapshots before and the snapshots after them, and
undo and redo move by one snapshot (`History.undo`, `History.redo`).

A program tracks a history if its undo list joins the snapshots of the past, one
edit for each, and its redo list those of the future (`Program.Tracks`).  Every
operation keeps this up and gets the same answer from both
(`Program.Tracks.operate`), so no sequence of operations tells them apart
(`Program.replay_refines_history`).
-/

import Labyrinth.Proofs.Program.Edits
import Labyrinth.Proofs.Replay

namespace Labyrinth

/-- One thing to do with a program. -/
inductive Operation
  | push (block : Direction)
  | insert (index : Nat) (block : Direction)
  | remove (index : Nat)
  | reorder (source target : Nat)
  | clear
  | undo
  | redo
deriving DecidableEq, Repr

/-- What a program answers to an operation. -/
inductive Reply
  /-- There is nothing to tell. -/
  | done
  /-- Whether the operation was accepted. -/
  | accepted (yes : Bool)
  /-- The block that was taken out, if there was one. -/
  | removed (block? : Option Direction)
deriving DecidableEq, Repr

/-- Does an operation on a program.  A refused one leaves the program as it was. -/
def Program.operate (p : Program) : Operation → Reply × Program
  | .push block => (.done, p.push block)
  | .insert index block =>
    (.accepted (p.insert? index block).isSome, (p.insert? index block).getD p)
  | .remove index =>
    (.removed ((p.remove? index).map (·.1)), ((p.remove? index).map (·.2)).getD p)
  | .reorder source target =>
    (.accepted (p.reorder? source target).isSome, (p.reorder? source target).getD p)
  | .clear => (.done, p.clear)
  | .undo => (.done, p.undo)
  | .redo => (.done, p.redo)

/-! ## The reference -/

/-- The blocks of a program between the blocks that it had before, the latest
first, and the blocks that undoing took away, the next to come back first. -/
structure History where
  past : List (List Direction)
  blocks : List Direction
  future : List (List Direction)
deriving DecidableEq, Repr

namespace History

/-- The history of blocks that were never changed. -/
def ofBlocks (blocks : List Direction) : History := ⟨[], blocks, []⟩

/-- Goes on with other blocks.  The future is forgotten. -/
def change (h : History) (blocks : List Direction) : History := ⟨h.blocks :: h.past, blocks, []⟩

/-- Goes back by one snapshot, if there is one. -/
def undo (h : History) : History :=
  match h.past with
  | [] => h
  | before :: past => ⟨past, before, h.blocks :: h.future⟩

/-- Goes forward by one snapshot, if there is one. -/
def redo (h : History) : History :=
  match h.future with
  | [] => h
  | after :: future => ⟨h.blocks :: h.past, after, future⟩

/-- Does an operation on a history.  A refused one, moving a block to its own
place, and clearing no blocks leave the history as it was. -/
def operate (h : History) : Operation → Reply × History
  | .push block => (.done, h.change (h.blocks ++ [block]))
  | .insert index block =>
    if index ≤ h.blocks.length then
      (.accepted true, h.change (h.blocks.insertIdx index block))
    else (.accepted false, h)
  | .remove index =>
    match h.blocks[index]? with
    | some block => (.removed (some block), h.change (h.blocks.eraseIdx index))
    | none => (.removed none, h)
  | .reorder source target =>
    if hin : source < h.blocks.length ∧ target < h.blocks.length then
      (.accepted true,
        if source = target then h
        else h.change ((h.blocks.eraseIdx source).insertIdx target (h.blocks.get ⟨source, hin.1⟩)))
    else (.accepted false, h)
  | .clear => (.done, if h.blocks = [] then h else h.change [])
  | .undo => (.done, h.undo)
  | .redo => (.done, h.redo)

end History

/-! ## Edits between snapshots -/

/-- The edits go along the snapshots, one edit from each to the next. -/
inductive Along (R : Edit → List Direction → List Direction → Prop) :
    List Direction → List Edit → List (List Direction) → Prop
  | nil {blocks : List Direction} : Along R blocks [] []
  | cons {e : Edit} {blocks next : List Direction} {edits : List Edit}
      {snapshots : List (List Direction)} :
      R e blocks next → Along R next edits snapshots →
        Along R blocks (e :: edits) (next :: snapshots)

/-- There is a snapshot for each edit. -/
theorem Along.length_eq {R : Edit → List Direction → List Direction → Prop}
    {blocks : List Direction} {edits : List Edit} {snapshots : List (List Direction)}
    (h : Along R blocks edits snapshots) : edits.length = snapshots.length := by
  induction h with
  | nil => rfl
  | cons _ _ ih => rw [List.length_cons, List.length_cons, ih]

/-- The first edit leads to a snapshot. -/
theorem Along.exists_next {R : Edit → List Direction → List Direction → Prop}
    {blocks : List Direction} {edits : List Edit} {snapshots : List (List Direction)}
    (h : Along R blocks edits snapshots) {e : Edit} (he : e ∈ edits.head?) :
    ∃ next, R e blocks next := by
  cases h with
  | nil => cases he
  | cons hr _ =>
    obtain rfl := Option.some.inj he
    exact ⟨_, hr⟩

namespace Program

/-- **The program is where the history is.**  Taking its edits back leads through
the past, and making them again leads through the future. -/
structure Tracks (p : Program) (h : History) : Prop where
  blocks_eq : p.blocks = h.blocks
  undo_along : Along (fun e after before => e.Joins before after) h.blocks p.undoList h.past
  redo_along : Along Edit.Joins h.blocks p.redoList h.future

variable {p : Program} {h : History} {e : Edit}

/-- At the beginning there is nothing to undo or redo on either side. -/
theorem tracks_ofBlocks (blocks : List Direction) :
    (ofBlocks blocks).Tracks (History.ofBlocks blocks) :=
  ⟨rfl, .nil, .nil⟩

namespace Tracks

/-- A fitting change is one more snapshot. -/
theorem perform (ht : p.Tracks h) (he : e.Fits p.blocks) :
    (p.perform e).Tracks (h.change (e.apply p.blocks)) := by
  have hjoins := he.joins
  refine ⟨rfl, .cons ?_ ht.undo_along, .nil⟩
  rw [← ht.blocks_eq]
  exact hjoins

/-- Adding a block keeps track. -/
theorem push (ht : p.Tracks h) (block : Direction) :
    (p.push block).Tracks (h.change (h.blocks ++ [block])) := by
  have happly : (Edit.insert p.length block).apply p.blocks = h.blocks ++ [block] := by
    rw [Edit.apply, length, List.insertIdx_length_self, ht.blocks_eq]
  have hpush := ht.perform (e := .insert p.length block) (Nat.le_refl _)
  rw [happly] at hpush
  exact hpush

/-- Clearing keeps track; without blocks nothing happens on either side. -/
theorem clear (ht : p.Tracks h) :
    p.clear.Tracks (if h.blocks = [] then h else h.change []) := by
  by_cases hempty : h.blocks = []
  · rw [if_pos hempty, Program.clear, isEmpty, ht.blocks_eq, hempty]
    exact ht
  · rw [if_neg hempty, Program.clear, isEmpty, ht.blocks_eq, List.isEmpty_eq_false_iff.2 hempty]
    exact ht.perform (e := .clear h.blocks) ht.blocks_eq.symm

/-- Undoing keeps track: the reverse edit leads to the last snapshot. -/
theorem undo (ht : p.Tracks h) : p.undo.Tracks h.undo := by
  obtain ⟨blocks, undoList, redoList⟩ := p
  obtain ⟨past, current, future⟩ := h
  obtain ⟨rfl, hundo, hredo⟩ := ht
  cases hundo with
  | nil => exact ⟨rfl, .nil, hredo⟩
  | cons hjoins hundo =>
    have hrevert := hjoins.revert_eq
    exact ⟨hrevert, hundo, .cons hjoins hredo⟩

/-- Redoing keeps track: the edit leads to the next snapshot. -/
theorem redo (ht : p.Tracks h) : p.redo.Tracks h.redo := by
  obtain ⟨blocks, undoList, redoList⟩ := p
  obtain ⟨past, current, future⟩ := h
  obtain ⟨rfl, hundo, hredo⟩ := ht
  cases hredo with
  | nil => exact ⟨rfl, hundo, .nil⟩
  | cons hjoins hredo =>
    have happly := hjoins.apply_eq
    exact ⟨happly, .cons hjoins hundo, hredo⟩

/-- **Every operation gets the same answer from both, and they stay together.** -/
theorem operate (ht : p.Tracks h) (o : Operation) :
    (p.operate o).1 = (h.operate o).1 ∧ (p.operate o).2.Tracks (h.operate o).2 := by
  obtain ⟨past, blocks, future⟩ := h
  obtain rfl : p.blocks = blocks := ht.blocks_eq
  cases o with
  | push block => exact ⟨rfl, ht.push block⟩
  | insert index block =>
    by_cases hi : index ≤ p.blocks.length
    · rw [Program.operate, insert?, length, if_pos hi, History.operate, if_pos hi]
      exact ⟨rfl, ht.perform (e := .insert index block) hi⟩
    · rw [Program.operate, insert?, length, if_neg hi, History.operate, if_neg hi]
      exact ⟨rfl, ht⟩
  | remove index =>
    rw [Program.operate, remove?, History.operate]
    cases hblock : p.blocks[index]? with
    | some block => exact ⟨rfl, ht.perform (e := .remove index block) hblock⟩
    | none => exact ⟨rfl, ht⟩
  | reorder source target =>
    by_cases hin : source < p.blocks.length ∧ target < p.blocks.length
    · have hmove := moveBlock?_eq_some_iff.2 ⟨hin.1, hin.2, rfl⟩
      rw [Program.operate, reorder?, hmove, History.operate, dif_pos hin]
      refine ⟨rfl, ?_⟩
      by_cases heq : source = target
      · rw [if_pos heq, if_pos heq]
        exact ht
      · have hreorder := ht.perform (e := .reorder source target)
          (Option.isSome_iff_exists.2 ⟨_, hmove⟩)
        rw [Edit.apply, hmove, Option.getD_some] at hreorder
        rw [if_neg heq, if_neg heq]
        exact hreorder
    · have hmove : moveBlock? p.blocks source target = none := dif_neg hin
      rw [Program.operate, reorder?, hmove, History.operate, dif_neg hin]
      exact ⟨rfl, ht⟩
  | clear => exact ⟨rfl, ht.clear⟩
  | undo => exact ⟨rfl, ht.undo⟩
  | redo => exact ⟨rfl, ht.redo⟩

end Tracks

/-- **Undo and redo move through the history.**  Whatever the blocks at the start
and the operations, the program and the history give the same answers, they end
with the same blocks, and there is an edit for every snapshot.  Undo and redo
insert and remove no block out of range. -/
theorem replay_refines_history (blocks : List Direction) (operations : List Operation) :
    let played := replay operate (ofBlocks blocks) operations
    let reference := replay History.operate (History.ofBlocks blocks) operations
    played.1 = reference.1 ∧
      played.2.blocks = reference.2.blocks ∧
      played.2.undoList.length = reference.2.past.length ∧
      played.2.redoList.length = reference.2.future.length ∧
      (∀ e ∈ played.2.undoList.head?, e.RevertInRange played.2.blocks) ∧
      ∀ e ∈ played.2.redoList.head?, e.InRange played.2.blocks := by
  obtain ⟨hanswers, htracks⟩ := replay_relates operate History.operate
    (fun _ _ o ht => Tracks.operate ht o) (tracks_ofBlocks blocks) operations
  refine ⟨hanswers, htracks.blocks_eq, htracks.undo_along.length_eq,
    htracks.redo_along.length_eq, fun e he => ?_, fun e he => ?_⟩
  · obtain ⟨before, hjoins⟩ := htracks.undo_along.exists_next he
    rw [htracks.blocks_eq]
    exact hjoins.revertInRange
  · obtain ⟨after, hjoins⟩ := htracks.redo_along.exists_next he
    rw [htracks.blocks_eq]
    exact hjoins.inRange

end Program

end Labyrinth
