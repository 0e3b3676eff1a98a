/-
# The order of move lists

A search tries shorter move lists before longer ones, and lists of one length in
the order of the directions.  Both together are the order of one number, the
rank: the places of the moves among the four directions, read as digits of base
four after a leading one.

With ranks the whole order of a search is arithmetic.  One more move takes rank
`n` to a rank between `4 * n` and `4 * n + 3` (`rank_snoc`), and a smaller rank
never belongs to a longer list (`length_le_of_rank_le`).  Among lists of one
length it belongs to the list that comes first in the lexicographic order
(`precedes_of_rank_le`).
-/

import Labyrinth.Direction
import Mathlib.Data.List.Induction

namespace Labyrinth

/-- The place of a direction among the four. -/
def Direction.index : Direction → Nat
  | up => 0
  | down => 1
  | left => 2
  | right => 3

/-- Indices are digits at base four. -/
theorem Direction.index_lt (d : Direction) : d.index < 4 := by
  cases d <;> decide

/-- A direction is known by its index. -/
theorem Direction.index_inj {d e : Direction} (h : d.index = e.index) : d = e := by
  cases d <;> cases e <;> first | rfl | exact absurd h (by decide)

/-- What is left of the four directions begins with the one whose turn it is. -/
theorem Direction.all_drop {d : Direction} {ds : List Direction} {n : Nat}
    (h : d :: ds = all.toList.drop n) :
    d.index = n ∧ n < 4 ∧ ds = all.toList.drop (n + 1) := by
  have hlen : n < 4 := by
    have := congrArg List.length h
    simp only [List.length_cons, List.length_drop, Vector.length_toList] at this
    omega
  match n, hlen with
  | 0, _ | 1, _ | 2, _ | 3, _ =>
    obtain ⟨rfl, rfl⟩ := List.cons.inj h
    exact ⟨rfl, by omega, rfl⟩

/-- The number of a move list in the order of length and directions. -/
def rank (ds : List Direction) : Nat := ds.foldl (fun n d => 4 * n + d.index) 1

/-- No moves have the first rank. -/
@[simp]
theorem rank_nil : rank [] = 1 := rfl

/-- A last move is a last digit. -/
theorem rank_snoc (ds : List Direction) (d : Direction) :
    rank (ds ++ [d]) = 4 * rank ds + d.index := by
  rw [rank, List.foldl_append]
  rfl

/-- No rank is zero, since its first digit is one. -/
theorem rank_pos (ds : List Direction) : 0 < rank ds := by
  induction ds using List.reverseRecOn with
  | nil => exact Nat.one_pos
  | append_singleton ds d ih =>
    rw [rank_snoc]
    omega

/-- **The lists of smaller rank are not longer.** -/
theorem length_le_of_rank_le {ds es : List Direction} (h : rank ds ≤ rank es) :
    ds.length ≤ es.length := by
  induction ds using List.reverseRecOn generalizing es with
  | nil => exact Nat.zero_le _
  | append_singleton ds d ih =>
    rcases List.eq_nil_or_concat es with rfl | ⟨es, e, rfl⟩
    · have := rank_pos ds
      rw [rank_snoc, rank_nil] at h
      omega
    · have := e.index_lt
      rw [List.concat_eq_append, rank_snoc, rank_snoc] at h
      have hle : ds.length ≤ es.length := ih (by omega)
      simpa using hle

/-! ## Lists of one length -/

/-- The moves come before others in the lexicographic order: where the two lists
first differ, theirs is the direction that comes first. -/
abbrev Precedes (ds es : List Direction) : Prop := List.Lex (fun d e => d.index < e.index) ds es

/-- The number that has the digits of `n` and then one digit for each move. -/
def numeral (n : Nat) (ds : List Direction) : Nat := ds.foldl (fun n d => 4 * n + d.index) n

/-- The next digit is shifted in. -/
theorem numeral_cons (n : Nat) (d : Direction) (ds : List Direction) :
    numeral n (d :: ds) = numeral (4 * n + d.index) ds := rfl

/-- Of two numbers the smaller one stays the smaller, whatever digits follow. -/
theorem numeral_lt {m n : Nat} (h : m < n) {ds es : List Direction}
    (hlength : ds.length = es.length) : numeral m ds < numeral n es := by
  induction ds generalizing m n es with
  | nil =>
    obtain rfl := List.length_eq_zero_iff.1 hlength.symm
    exact h
  | cons d ds ih =>
    obtain ⟨e, es, rfl⟩ := List.exists_cons_of_length_eq_add_one hlength.symm
    have hd := d.index_lt
    rw [numeral_cons, numeral_cons]
    exact ih (by omega) (by simpa using hlength)

/-- Behind the same digits, the first place where two lists differ decides. -/
theorem precedes_of_numeral_le {n : Nat} {ds es : List Direction}
    (hlength : ds.length = es.length) (h : numeral n ds ≤ numeral n es) :
    es = ds ∨ Precedes ds es := by
  induction ds generalizing n es with
  | nil => exact Or.inl (List.length_eq_zero_iff.1 hlength.symm)
  | cons d ds ih =>
    obtain ⟨e, es, rfl⟩ := List.exists_cons_of_length_eq_add_one hlength.symm
    have htail : ds.length = es.length := by simpa using hlength
    rw [numeral_cons, numeral_cons] at h
    rcases Nat.lt_trichotomy d.index e.index with hlt | heq | hgt
    · exact Or.inr (.rel hlt)
    · obtain rfl := Direction.index_inj heq
      exact (ih htail h).imp (congrArg _) .cons
    · have hnumber : 4 * n + e.index < 4 * n + d.index := by omega
      exact absurd h (Nat.not_le_of_lt (numeral_lt hnumber htail.symm))

/-- **Among the lists of one length the order of rank is the lexicographic
order.** -/
theorem precedes_of_rank_le {ds es : List Direction} (hlength : ds.length = es.length)
    (h : rank ds ≤ rank es) : es = ds ∨ Precedes ds es :=
  precedes_of_numeral_le hlength h

end Labyrinth
