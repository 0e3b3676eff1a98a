/-
# A shuffle only reorders

Every exchange of two places reorders the items, so a shuffle does, whatever
numbers were drawn (`Lcg.shuffle_perm`).  The places to exchange come from the
draws alone, and nobody looks at the items.  So shuffling goes along with any change
of the items (`Lcg.shuffle_map`), and what it does to the numbers of the places it
does to all items (`Lcg.shuffle_rearranges`).
-/

import Mathlib.Data.Fintype.EquivFin
import Mathlib.Logic.Function.Iterate
import Labyrinth.Direction
import Labyrinth.Random.Shuffle

namespace Labyrinth
namespace Lcg

variable {α β : Type} {n : Nat}

/-! ## The items -/

/-- Settling places reorders the items. -/
theorem settle_perm (i : Nat) (h : i < n) (items : Vector α n) (g : Lcg) :
    (settle i h items g).1.Perm items := by
  induction i generalizing items g with
  | zero => exact Vector.Perm.rfl
  | succ i ih =>
    rw [settle]
    exact (ih _ _ _).trans (Vector.swap_perm ..)

/-- **A shuffle returns the items in some order.** -/
theorem shuffle_perm (items : Vector α n) (g : Lcg) : (g.shuffle items).1.Perm items := by
  cases n with
  | zero => exact Vector.Perm.rfl
  | succ n => exact settle_perm n _ items g

/-- No direction is lost when the four are shuffled. -/
theorem mem_shuffle_all (d : Direction) (g : Lcg) :
    d ∈ (g.shuffle Direction.all).1.toList :=
  (shuffle_perm Direction.all g).toList.mem_iff.2 d.mem_all

/-! ## The draws -/

/-- Settling a place costs one draw. -/
theorem settle_random (i : Nat) (h : i < n) (items : Vector α n) (g : Lcg) :
    (settle i h items g).2 = advance^[i] g := by
  induction i generalizing items g with
  | zero => rfl
  | succ i ih => rw [settle, ih, Function.iterate_succ_apply]

/-- **A shuffle of `n` items draws `n - 1` times**, and not at all if there are none. -/
theorem shuffle_random (items : Vector α n) (g : Lcg) :
    (g.shuffle items).2 = advance^[n - 1] g := by
  cases n with
  | zero => rfl
  | succ n => exact settle_random n _ items g

/-! ## The exchanges -/

/-- The exchanges that settle the places `i, …, 1`, one for each draw: the place,
and the place that the draw selects. -/
def exchanges : Nat → Lcg → List (Nat × Nat)
  | 0, _ => []
  | i + 1, g => (i + 1, (g.advance.pick (i + 1)).val) :: exchanges i g.advance

/-- Makes an exchange, if the items have both places. -/
def exchange? (items : Vector α n) (e : Nat × Nat) : Option (Vector α n) :=
  if h : e.1 < n ∧ e.2 < n then some (items.swap e.1 e.2 h.1 h.2) else none

/-- Settling places makes their exchanges, and none of them misses. -/
theorem foldlM_exchange?_settle (i : Nat) (h : i < n) (items : Vector α n) (g : Lcg) :
    (exchanges i g).foldlM exchange? items = some (settle i h items g).1 := by
  induction i generalizing items g with
  | zero => rfl
  | succ i ih =>
    have hpick : (g.advance.pick (i + 1)).val < n := by
      have := (g.advance.pick (i + 1)).isLt
      omega
    rw [exchanges, List.foldlM_cons, exchange?, dif_pos ⟨h, hpick⟩]
    exact ih (by omega) _ _

/-- **A shuffle is its exchanges, and every one of them has its two places.** -/
theorem foldlM_exchange?_shuffle (items : Vector α n) (g : Lcg) :
    (exchanges (n - 1) g).foldlM exchange? items = some (g.shuffle items).1 := by
  cases n with
  | zero => rfl
  | succ n => exact foldlM_exchange?_settle n _ items g

/-! ## Changed items -/

/-- Items can be changed before or after an exchange. -/
theorem map_swap (f : α → β) (items : Vector α n) (i j : Nat) (hi : i < n) (hj : j < n) :
    (items.swap i j hi hj).map f = (items.map f).swap i j hi hj := by
  ext k hk
  rw [Vector.getElem_map, Vector.getElem_swap, Vector.getElem_swap]
  split
  · rw [Vector.getElem_map]
  · split <;> rw [Vector.getElem_map]

/-- Or before or after places are settled. -/
theorem settle_map (f : α → β) (i : Nat) (h : i < n) (items : Vector α n) (g : Lcg) :
    settle i h (items.map f) g = ((settle i h items g).1.map f, (settle i h items g).2) := by
  induction i generalizing items g with
  | zero => rfl
  | succ i ih => rw [settle, settle, ← map_swap, ih]

/-- **Changing the items before a shuffle comes to the same as changing them after it.** -/
theorem shuffle_map (f : α → β) (items : Vector α n) (g : Lcg) :
    g.shuffle (items.map f) = ((g.shuffle items).1.map f, (g.shuffle items).2) := by
  cases n with
  | zero => exact Prod.ext (Vector.ext fun i hi => absurd hi (Nat.not_lt_zero i)) rfl
  | succ n => exact settle_map f n _ items g

/-- The place that a shuffle of `n` items takes its item at place `i` from. -/
def sources (n : Nat) (g : Lcg) : Vector (Fin n) n := (g.shuffle (Vector.ofFn id)).1

/-- A shuffle takes each item from its source. -/
theorem get_shuffle (items : Vector α n) (g : Lcg) (i : Fin n) :
    (g.shuffle items).1.get i = items.get ((sources n g).get i) := by
  have hitems : items = (Vector.ofFn id).map items.get := by
    ext j hj
    rw [Vector.getElem_map, Vector.getElem_ofFn]
    rfl
  have hshuffle := congrArg Prod.fst (shuffle_map items.get (Vector.ofFn id) g)
  rw [← hitems] at hshuffle
  rw [hshuffle]
  exact Vector.getElem_map ..

/-- No place is a source twice. -/
theorem sources_injective (n : Nat) (g : Lcg) : Function.Injective (sources n g).get := by
  have hnodup : (sources n g).toList.Nodup := by
    rw [sources, (shuffle_perm (Vector.ofFn id) g).toList.nodup_iff, Vector.toList_ofFn,
      List.nodup_ofFn]
    exact Function.injective_id
  have hlt : ∀ i : Fin n, i.val < (sources n g).toList.length := fun i => by
    rw [Vector.length_toList]
    exact i.isLt
  intro i j hij
  have hget : (sources n g).toList.get ⟨i, hlt i⟩ = (sources n g).toList.get ⟨j, hlt j⟩ := hij
  exact Fin.ext (Fin.mk.inj (hnodup.injective_get hget))

/-- **A shuffle is a permutation that the generator and the number of items decide.**
The items of any type are in its places afterwards, whatever they are and whether some
are equal; it makes its exchanges with both places inside the list, and leaves the
generator as `n - 1` draws do.  Items changed by a function come out as the shuffled
items changed by it, with the same generator. -/
theorem shuffle_rearranges (n : Nat) (g : Lcg) :
    ∃ places : Equiv.Perm (Fin n), ∀ (α : Type) (items : Vector α n),
      (exchanges (n - 1) g).foldlM exchange? items = some (g.shuffle items).1 ∧
      (∀ i, (g.shuffle items).1.get i = items.get (places i)) ∧
      (g.shuffle items).1.Perm items ∧
      (g.shuffle items).2 = advance^[n - 1] g ∧
      ∀ (β : Type) (f : α → β),
        g.shuffle (items.map f) = ((g.shuffle items).1.map f, (g.shuffle items).2) := by
  have hbijective := Finite.injective_iff_bijective.1 (sources_injective n g)
  exact ⟨Equiv.ofBijective _ hbijective, fun α items =>
    ⟨foldlM_exchange?_shuffle items g, get_shuffle items g, shuffle_perm items g,
      shuffle_random items g, fun β f => shuffle_map f items g⟩⟩

end Lcg
end Labyrinth
