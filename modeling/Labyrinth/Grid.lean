/-
# Grids

A grid is a rectangle of items, stored row by row.  It is read and changed at
positions: outside the rectangle there is nothing to read, and a change there
does nothing.  `Grid.get?_modify` says what a change leaves behind at every
position.  `Grid.count_modify` turns it into arithmetic on the number of items
with a property; such numbers bound the loops that walk over a grid.
-/

import Labyrinth.Position

namespace Labyrinth

/-- A rectangle of `height` rows with `width` items each, the top row first. -/
structure Grid (α : Type) where
  width : Nat
  height : Nat
  rows : Vector (Vector α width) height
deriving DecidableEq

namespace Grid

variable {α β : Type}

/-- The grid whose item in column `x` and row `y` is `f x y`. -/
def ofFn (width height : Nat) (f : Nat → Nat → α) : Grid α :=
  ⟨width, height, .ofFn fun y => .ofFn fun x => f x y⟩

/-- The column and the row of a position inside the grid. -/
def index? (g : Grid α) (p : Position) : Option (Fin g.width × Fin g.height) :=
  if h : (0 ≤ p.x ∧ p.x < g.width) ∧ (0 ≤ p.y ∧ p.y < g.height) then
    some (⟨p.x.toNat, by omega⟩, ⟨p.y.toNat, by omega⟩)
  else none

/-- The item at a position inside the grid. -/
def get? (g : Grid α) (p : Position) : Option α :=
  (g.index? p).map fun (x, y) => g.rows[y][x]

/-- Applies `f` to the item at a position; outside the grid nothing happens. -/
def modify (g : Grid α) (p : Position) (f : α → α) : Grid α :=
  match g.index? p with
  | some (x, y) => { g with rows := g.rows.set y (g.rows[y].set x (f g.rows[y][x])) }
  | none => g

/-- Applies `f` to every item. -/
def map (f : α → β) (g : Grid α) : Grid β :=
  ⟨g.width, g.height, g.rows.map (·.map f)⟩

/-- The items, row by row. -/
def toList (g : Grid α) : List α := g.rows.toList.flatMap Vector.toList

/-- The number of items with a property. -/
def count (p : α → Bool) (g : Grid α) : Nat := g.toList.countP p

/-! ## Reading -/

/-- A position inside is the column and the row that it names. -/
theorem index?_eq_some_iff {g : Grid α} {p : Position} {x : Fin g.width} {y : Fin g.height} :
    g.index? p = some (x, y) ↔ p.x = x.val ∧ p.y = y.val := by
  unfold index?
  split
  · rename_i h
    simp only [Option.some.injEq, Prod.mk.injEq, Fin.ext_iff]
    omega
  · rename_i h
    have := x.isLt
    have := y.isLt
    simp only [reduceCtorEq, false_iff]
    omega

/-- What is read at a position stands in its column and its row. -/
theorem get?_eq_some_iff {g : Grid α} {p : Position} {a : α} :
    g.get? p = some a ↔
      ∃ (x : Fin g.width) (y : Fin g.height), p.x = x.val ∧ p.y = y.val ∧ g.rows[y][x] = a := by
  simp only [get?, Option.map_eq_some_iff, Prod.exists, index?_eq_some_iff, and_assoc]

/-- Nothing is read exactly outside the rectangle. -/
theorem get?_eq_none_iff {g : Grid α} {p : Position} :
    g.get? p = none ↔ ¬((0 ≤ p.x ∧ p.x < g.width) ∧ (0 ≤ p.y ∧ p.y < g.height)) := by
  simp only [get?, index?, Option.map_eq_none_iff]
  split <;> simp_all

/-- A changed grid is read as the grid is, and then changed. -/
theorem get?_map (f : α → β) (g : Grid α) (p : Position) :
    (g.map f).get? p = (g.get? p).map f := by
  cases h : g.get? p with
  | none => exact get?_eq_none_iff.2 ((get?_eq_none_iff (g := g)).1 h)
  | some a =>
    obtain ⟨x, y, hx, hy, rfl⟩ := get?_eq_some_iff.1 h
    refine get?_eq_some_iff.2 ⟨x, y, hx, hy, ?_⟩
    show (g.rows.map fun row => row.map f)[y.val][x.val] = f g.rows[y.val][x.val]
    rw [Vector.getElem_map, Vector.getElem_map]

/-- The items of a grid are those of its rows. -/
theorem mem_toList_iff {g : Grid α} {a : α} :
    a ∈ g.toList ↔ ∃ (x : Fin g.width) (y : Fin g.height), g.rows[y][x] = a := by
  rw [toList, List.mem_flatMap]
  constructor
  · rintro ⟨row, hrow, ha⟩
    obtain ⟨y, hy, rfl⟩ := Vector.mem_iff_getElem.1 (Vector.mem_toList_iff.1 hrow)
    obtain ⟨x, hx, rfl⟩ := Vector.mem_iff_getElem.1 (Vector.mem_toList_iff.1 ha)
    exact ⟨⟨x, hx⟩, ⟨y, hy⟩, rfl⟩
  · rintro ⟨x, y, rfl⟩
    exact ⟨g.rows[y], Vector.mem_toList_iff.2 (Vector.getElem_mem y.isLt),
      Vector.mem_toList_iff.2 (Vector.getElem_mem x.isLt)⟩

/-! ## Changing one item -/

/-- A change inside sets one place of one row. -/
theorem modify_of_index? {g : Grid α} {p : Position} {x : Fin g.width} {y : Fin g.height}
    (h : g.index? p = some (x, y)) (f : α → α) :
    g.modify p f = { g with rows := g.rows.set y (g.rows[y].set x (f g.rows[y][x])) } := by
  rw [modify, h]

/-- A change outside does nothing. -/
theorem modify_of_get?_eq_none {g : Grid α} {p : Position} (h : g.get? p = none) (f : α → α) :
    g.modify p f = g := by
  rw [get?, Option.map_eq_none_iff] at h
  rw [modify, h]

/-- A change keeps the width. -/
@[simp]
theorem width_modify (g : Grid α) (p : Position) (f : α → α) :
    (g.modify p f).width = g.width := by
  unfold modify; split <;> rfl

/-- A change keeps the height. -/
@[simp]
theorem height_modify (g : Grid α) (p : Position) (f : α → α) :
    (g.modify p f).height = g.height := by
  unfold modify; split <;> rfl

/-- **A change is seen at its own position and nowhere else.** -/
theorem get?_modify (g : Grid α) (p q : Position) (f : α → α) :
    (g.modify p f).get? q = if q = p then (g.get? p).map f else g.get? q := by
  cases h : g.get? p with
  | none =>
    rw [modify_of_get?_eq_none h]
    split <;> simp_all
  | some a =>
    obtain ⟨x, y, hx, hy, rfl⟩ := get?_eq_some_iff.1 h
    rw [modify_of_index? (index?_eq_some_iff.2 ⟨hx, hy⟩)]
    cases hq : g.get? q with
    | none =>
      rw [if_neg (by rintro rfl; simp [h] at hq)]
      exact get?_eq_none_iff.2 ((get?_eq_none_iff (g := g)).1 hq)
    | some b =>
      obtain ⟨u, v, hu, hv, rfl⟩ := get?_eq_some_iff.1 hq
      refine Eq.trans (b := some _) (by exact get?_eq_some_iff.2 ⟨u, v, hu, hv, rfl⟩) ?_
      have hqp : q = p ↔ u = x ∧ v = y := by
        rw [Position.ext_iff, Fin.ext_iff, Fin.ext_iff]; omega
      simp only [hqp, Fin.getElem_fin, Option.map_some, Vector.getElem_set, Fin.ext_iff]
      by_cases hv' : v.val = y.val <;> by_cases hu' : u.val = x.val
      · simp [hv', hu']
      · simp [hv', hu', Ne.symm hu']
      · simp [hv', hu', Ne.symm hv']
      · simp [hv', hu', Ne.symm hv']

/-! ## Counting -/

/-- Setting an item moves a count by what the old and the new item add to it.  The old one
stands on the left, so that nothing is subtracted. -/
theorem countP_set_add (P : α → Bool) (items : List α) (i : Nat) (h : i < items.length) (a : α) :
    (items.set i a).countP P + (if P items[i] then 1 else 0) =
      items.countP P + (if P a then 1 else 0) := by
  induction items generalizing i with
  | nil => simp at h
  | cons b items ih =>
    cases i with
    | zero =>
      simp only [List.set_cons_zero, List.getElem_cons_zero, List.countP_cons]
      omega
    | succ i =>
      have := ih i (by simpa using h)
      simp only [List.set_cons_succ, List.getElem_cons_succ, List.countP_cons]
      omega

/-- The same for a row among rows. -/
theorem countP_flatMap_set (P : α → Bool) {n : Nat} (rows : List (Vector α n)) (y : Nat)
    (h : y < rows.length) (row : Vector α n) :
    ((rows.set y row).flatMap Vector.toList).countP P + rows[y].toList.countP P =
      (rows.flatMap Vector.toList).countP P + row.toList.countP P := by
  induction rows generalizing y with
  | nil => simp at h
  | cons first rows ih =>
    cases y with
    | zero =>
      simp only [List.set_cons_zero, List.getElem_cons_zero, List.flatMap_cons, List.countP_append]
      omega
    | succ y =>
      have := ih y (by simpa using h)
      simp only [List.set_cons_succ, List.getElem_cons_succ, List.flatMap_cons, List.countP_append]
      omega

/-- **A change moves a count by at most one:** what the old item contributed
goes, and what the new item contributes comes. -/
theorem count_modify {g : Grid α} {p : Position} {a : α} (h : g.get? p = some a) (f : α → α)
    (P : α → Bool) :
    (g.modify p f).count P + (if P a then 1 else 0) =
      g.count P + (if P (f a) then 1 else 0) := by
  obtain ⟨x, y, hx, hy, rfl⟩ := get?_eq_some_iff.1 h
  rw [modify_of_index? (index?_eq_some_iff.2 ⟨hx, hy⟩)]
  have hrows := countP_flatMap_set P g.rows.toList y (by simp)
    (g.rows[y].set x (f g.rows[y][x]))
  have hrow := countP_set_add P g.rows[y].toList x (by simp) (f g.rows[y][x])
  simp only [count, toList, Vector.toList_set, Vector.getElem_toList, Fin.getElem_fin] at *
  omega

end Grid

end Labyrinth
