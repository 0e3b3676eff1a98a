/-
# Undo and redo take each other back

Undoing moves the latest edit from the undo list to the redo list, and redoing
moves it back, so several of them move a whole piece of one list, turned round, in
front of the other (`lists_iterate`).
That the blocks come back too is not true of any two lists of edits: an edit that
is made on other blocks than it was recorded on loses some of them or leaves some
behind.  It holds where the lists join the snapshots of a history
(`Program.Tracks`), as they do after any operations, and there at any depth
(`Program.undo_redo_inverse`).
-/

import Labyrinth.Proofs.Program.History
import Mathlib.Logic.Function.Iterate

namespace Labyrinth

/-- **What takes back one step takes back several**, as long as there are steps to
make: `n` counts them, and `Q` is what a step needs to be taken back. -/
theorem iterate_back {α : Type} {f g : α → α} {n : α → Nat} {Q : α → Prop}
    (hcount : ∀ x, n (f x) = n x - 1) (hkeep : ∀ x, Q x → Q (f x))
    (hback : ∀ x, Q x → 0 < n x → g (f x) = x) {x : α} (hx : Q x) {k : Nat} (hk : k ≤ n x) :
    g^[k] (f^[k] x) = x := by
  -- the first step forth is the one that the last step back answers
  induction k generalizing x with
  | zero => rfl
  | succ k ih =>
    have hle : k ≤ n (f x) := by
      rw [hcount]
      omega
    rw [Function.iterate_succ_apply' g, Function.iterate_succ_apply f, ih (hkeep x hx) hle,
      hback x hx (by omega)]

/-- **A step that takes the first item of one list to the front of another** takes a
whole piece over when it is made several times, turned round, as far as there are
items. -/
theorem lists_iterate {α ε : Type} {f : α → α} {source target : α → List ε}
    (hsource : ∀ x, source (f x) = (source x).tail)
    (htarget : ∀ x, target (f x) = (source x).take 1 ++ target x) (x : α) (k : Nat) :
    source (f^[k] x) = (source x).drop k ∧
      target (f^[k] x) = ((source x).take k).reverse ++ target x := by
  induction k generalizing x with
  | zero => simp
  | succ k ih =>
    rw [Function.iterate_succ_apply, (ih (f x)).1, (ih (f x)).2, hsource, htarget]
    cases source x <;> simp

namespace Program

variable {p : Program} {h : History}

/-! ## The lists of edits -/

/-- Undoing takes the last edit off the list to undo. -/
@[simp]
theorem undoList_undo (p : Program) : p.undo.undoList = p.undoList.tail := by
  unfold undo
  split <;> simp_all

/-- It puts this edit on the list to redo. -/
@[simp]
theorem redoList_undo (p : Program) : p.undo.redoList = p.undoList.take 1 ++ p.redoList := by
  unfold undo
  split <;> simp_all

/-- Redoing takes the edit off the list to redo. -/
@[simp]
theorem redoList_redo (p : Program) : p.redo.redoList = p.redoList.tail := by
  unfold redo
  split <;> simp_all

/-- It puts this edit back on the list to undo. -/
@[simp]
theorem undoList_redo (p : Program) : p.redo.undoList = p.redoList.take 1 ++ p.undoList := by
  unfold redo
  split <;> simp_all

/-! ## There and back -/

namespace Tracks

/-- **Redoing makes the edit again that undoing took back**, on the blocks that it
was made on. -/
theorem redo_undo (ht : p.Tracks h) (hpos : 0 < p.undoList.length) : p.undo.redo = p := by
  obtain ⟨blocks, undoList, redoList⟩ := p
  obtain ⟨past, current, future⟩ := h
  obtain ⟨rfl, hundo, -⟩ := ht
  cases hundo with
  | nil => exact absurd hpos (Nat.lt_irrefl 0)
  | cons hjoins _ => simp only [Program.undo, Program.redo, hjoins.revert_eq, hjoins.apply_eq]

/-- **Undoing takes the edit back that redoing made.** -/
theorem undo_redo (ht : p.Tracks h) (hpos : 0 < p.redoList.length) : p.redo.undo = p := by
  obtain ⟨blocks, undoList, redoList⟩ := p
  obtain ⟨past, current, future⟩ := h
  obtain ⟨rfl, -, hredo⟩ := ht
  cases hredo with
  | nil => exact absurd hpos (Nat.lt_irrefl 0)
  | cons hjoins _ => simp only [Program.undo, Program.redo, hjoins.revert_eq, hjoins.apply_eq]

end Tracks

/-- Every program that operations lead to tracks a history. -/
theorem exists_tracks_replay (blocks : List Direction) (operations : List Operation) :
    ∃ h, (replay operate (ofBlocks blocks) operations).2.Tracks h := by
  obtain ⟨-, ht⟩ := replay_relates operate History.operate
    (fun _ _ o ht => Tracks.operate ht o) (tracks_ofBlocks blocks) operations
  exact ⟨_, ht⟩

/-- **Undo and redo are inverse on the whole program.**  Take any blocks and any
operations on them.  As many undos as there are edits to undo, or fewer, followed
by as many redos, give the program back as it was, with its blocks and both of its
lists; and so do redos followed by undos.  In between, just these edits have gone
over to the other list. -/
theorem undo_redo_inverse (blocks : List Direction) (operations : List Operation) (k : Nat) :
    let p := (replay operate (ofBlocks blocks) operations).2
    (k ≤ p.undoList.length →
      redo^[k] (undo^[k] p) = p ∧
        (undo^[k] p).undoList = p.undoList.drop k ∧
        (undo^[k] p).redoList = (p.undoList.take k).reverse ++ p.redoList) ∧
    (k ≤ p.redoList.length →
      undo^[k] (redo^[k] p) = p ∧
        (redo^[k] p).redoList = p.redoList.drop k ∧
        (redo^[k] p).undoList = (p.redoList.take k).reverse ++ p.undoList) := by
  intro p
  have htracks : ∃ h, p.Tracks h := exists_tracks_replay blocks operations
  constructor
  · intro hk
    have hback := iterate_back (Q := fun q : Program => ∃ h, q.Tracks h)
      (n := fun q => q.undoList.length) (fun q => by simp) (fun _ ⟨_, ht⟩ => ⟨_, ht.undo⟩)
      (fun _ ⟨_, ht⟩ hpos => ht.redo_undo hpos) htracks hk
    exact ⟨hback, lists_iterate undoList_undo redoList_undo p k⟩
  · intro hk
    have hback := iterate_back (Q := fun q : Program => ∃ h, q.Tracks h)
      (n := fun q => q.redoList.length) (fun q => by simp) (fun _ ⟨_, ht⟩ => ⟨_, ht.redo⟩)
      (fun _ ⟨_, ht⟩ hpos => ht.undo_redo hpos) htracks hk
    exact ⟨hback, lists_iterate redoList_redo undoList_redo p k⟩

/-- After an insertion, a move to the right, a removal and a clear that was undone,
three undos lead back to the blocks at the start and three redos forth again, and a
redo empties the program until it is undone. -/
theorem undo_redo_inverse_five_operations :
    let p := (replay operate (ofBlocks [.up, .right])
      [.insert 1 .left, .reorder 0 2, .remove 1, .clear, .undo]).2
    p.undoList.length = 3 ∧ (undo^[3] p).blocks = [.up, .right] ∧ redo^[3] (undo^[3] p) = p ∧
      p.redoList.length = 1 ∧ (redo^[1] p).blocks = [] ∧ undo^[1] (redo^[1] p) = p := by
  intro p
  have hundo : 3 ≤ p.undoList.length := by decide
  have hredo : 1 ≤ p.redoList.length := by decide
  obtain ⟨hback, -⟩ := (undo_redo_inverse [.up, .right]
    [.insert 1 .left, .reorder 0 2, .remove 1, .clear, .undo] 3).1 hundo
  obtain ⟨hforth, -⟩ := (undo_redo_inverse [.up, .right]
    [.insert 1 .left, .reorder 0 2, .remove 1, .clear, .undo] 1).2 hredo
  exact ⟨by decide, by decide, hback, by decide, by decide, hforth⟩

end Program
end Labyrinth
