/-
# The hash of a seed is a polynomial

The hash of a seed wraps to 32 bits at every code unit.  Wrapping moves a number
by a multiple of `2^32`, and what is multiplied and added afterwards leaves it a
multiple, so the hash stays congruent to the polynomial of the code units, which
never wraps (`foldl_hashUnit_modEq`).  Of the numbers that are congruent to the
polynomial only one has 32 bits (`textHash_eq_polynomial`).
-/

import Mathlib.Algebra.BigOperators.Fin
import Mathlib.Data.Int.ModEq
import Mathlib.Tactic.Ring
import Labyrinth.Random.Hash

namespace Labyrinth

/-! ## Code units -/

/-- The UTF-16 code units of a text. -/
def textUnits (text : String) : List Nat := text.toList.flatMap utf16Units

/-- The code units of a text and then those of another one. -/
theorem textUnits_append (s t : String) : textUnits (s ++ t) = textUnits s ++ textUnits t := by
  rw [textUnits, String.toList_append, List.flatMap_append]
  rfl

/-- **A character up to `U+FFFF` is its own code unit.** -/
theorem utf16Units_of_le {c : Char} (h : c.toNat ≤ 0xFFFF) : utf16Units c = [c.toNat] :=
  if_pos (Nat.lt_succ_of_le h)

/-- **A character above `U+FFFF` is a pair of surrogates**: twenty bits of what its code
has above `0x10000`, the upper ten in the high surrogate and the lower ten in the low
one. -/
theorem exists_utf16Units_eq {c : Char} (h : 0xFFFF < c.toNat) :
    ∃ a b, utf16Units c = [0xD800 + a, 0xDC00 + b] ∧ a < 0x400 ∧ b < 0x400 ∧
      0x400 * a + b = c.toNat - 0x10000 := by
  have hbound : c.toNat < 0x110000 := by
    rcases c.valid with hlow | ⟨-, hhigh⟩
    · exact Nat.lt_trans hlow (by decide)
    · exact hhigh
  refine ⟨(c.toNat - 0x10000) / 0x400, (c.toNat - 0x10000) % 0x400, if_neg (by omega), ?_, ?_, ?_⟩
  · omega
  · exact Nat.mod_lt _ (by decide)
  · exact Nat.div_add_mod ..

/-- A character has one code unit, or two if it lies above `U+FFFF`. -/
theorem length_utf16Units (c : Char) :
    (utf16Units c).length = if 0xFFFF < c.toNat then 2 else 1 := by
  by_cases h : 0xFFFF < c.toNat
  · obtain ⟨a, b, hunits, -⟩ := exists_utf16Units_eq h
    rw [hunits, if_pos h]
    rfl
  · rw [utf16Units_of_le (Nat.le_of_not_lt h), if_neg h]
    rfl

/-- A text has one code unit for each character, and one more for each character
above `U+FFFF`. -/
theorem length_textUnits (text : String) :
    (textUnits text).length = text.length + text.toList.countP (0xFFFF < ·.toNat) := by
  rw [textUnits, ← String.length_toList]
  induction text.toList with
  | nil => rfl
  | cons c cs ih =>
    rw [List.flatMap_cons, List.length_append, ih, length_utf16Units, List.length_cons,
      List.countP_cons]
    by_cases h : 0xFFFF < c.toNat
    · rw [if_pos h, if_pos (decide_eq_true h)]
      omega
    · rw [if_neg h, if_neg (by rwa [decide_eq_true_eq])]
      omega

/-! ## The polynomial -/

/-- The polynomial of code units at 31, the first one with the highest power. -/
def hashPolynomial (units : List Nat) : Int :=
  ∑ i : Fin units.length, (units[i] : Int) * 31 ^ (units.length - 1 - i)

/-- The first code unit has the highest power. -/
theorem hashPolynomial_cons (u : Nat) (units : List Nat) :
    hashPolynomial (u :: units) = u * 31 ^ units.length + hashPolynomial units := by
  show ∑ i : Fin (units.length + 1),
    ((u :: units)[i.val] : Int) * 31 ^ (units.length + 1 - 1 - i.val) = _
  rw [Fin.sum_univ_succ]
  refine congrArg _ (Finset.sum_congr rfl fun i _ => ?_)
  have hpower : units.length + 1 - 1 - (i.val + 1) = units.length - 1 - i.val := by omega
  exact congrArg (fun k => (units[i.val] : Int) * 31 ^ k) hpower

/-! ## Wrapping -/

/-- Wrapping keeps a hash congruent to what it wraps. -/
theorem hashUnit_modEq (hash : Int) (unit : Nat) :
    hashUnit hash unit ≡ hash * 31 + unit [ZMOD 4294967296] :=
  Int.bmod_emod

/-- A wrapped hash has 32 bits. -/
theorem hashUnit_bounds (hash : Int) (unit : Nat) :
    -2147483648 ≤ hashUnit hash unit ∧ hashUnit hash unit ≤ 2147483647 := by
  have hlow := Int.le_bmod (x := hash * 31 + unit) (m := 4294967296) (by decide)
  have hhigh := Int.bmod_lt (x := hash * 31 + unit) (m := 4294967296) (by decide)
  rw [hashUnit]
  omega

/-- **Wrapping at every code unit comes to the same as never wrapping**, modulo
`2^32` and from any hash. -/
theorem foldl_hashUnit_modEq (units : List Nat) (hash : Int) :
    units.foldl hashUnit hash ≡ hash * 31 ^ units.length + hashPolynomial units
      [ZMOD 4294967296] := by
  induction units generalizing hash with
  | nil =>
    rw [List.foldl_nil, List.length_nil, pow_zero, mul_one]
    exact (add_zero hash).symm ▸ Int.ModEq.refl hash
  | cons u units ih =>
    calc (u :: units).foldl hashUnit hash
        ≡ hashUnit hash u * 31 ^ units.length + hashPolynomial units [ZMOD 4294967296] := ih _
      _ ≡ (hash * 31 + u) * 31 ^ units.length + hashPolynomial units [ZMOD 4294967296] :=
          ((hashUnit_modEq hash u).mul_right _).add_right _
      _ = hash * 31 ^ (u :: units).length + hashPolynomial (u :: units) := by
          rw [hashPolynomial_cons, List.length_cons, pow_succ]
          ring

/-- A hash that goes on from one of 32 bits has 32 bits. -/
theorem foldl_hashUnit_bounds (units : List Nat) {hash : Int}
    (h : -2147483648 ≤ hash ∧ hash ≤ 2147483647) :
    -2147483648 ≤ units.foldl hashUnit hash ∧ units.foldl hashUnit hash ≤ 2147483647 := by
  induction units generalizing hash with
  | nil => exact h
  | cons u units ih => exact ih (hashUnit_bounds hash u)

/-! ## Hashes -/

/-- A hash has 32 bits. -/
theorem textHash_bounds (text : String) :
    -2147483648 ≤ textHash text ∧ textHash text ≤ 2147483647 :=
  foldl_hashUnit_bounds _ (by decide)

/-- A hash is congruent to the polynomial of its text. -/
theorem textHash_modEq (text : String) :
    textHash text ≡ hashPolynomial (textUnits text) [ZMOD 4294967296] := by
  have h := foldl_hashUnit_modEq (textUnits text) 0
  rwa [zero_mul, zero_add] at h

/-- The hash of a longer text goes on from the hash of its beginning. -/
theorem textHash_append (s t : String) :
    textHash (s ++ t) ≡ textHash s * 31 ^ (textUnits t).length + textHash t
      [ZMOD 4294967296] := by
  have happend : textHash (s ++ t) = (textUnits t).foldl hashUnit (textHash s) :=
    calc textHash (s ++ t)
        = (textUnits s ++ textUnits t).foldl hashUnit 0 := by rw [← textUnits_append]; rfl
      _ = (textUnits t).foldl hashUnit (textHash s) := List.foldl_append
  rw [happend]
  exact (foldl_hashUnit_modEq (textUnits t) _).trans ((textHash_modEq t).symm.add_left _)

/-- Two numbers of the 32-bit signed range that are congruent modulo `2^32` are equal. -/
theorem eq_of_modEq_of_bounds {a b : Int} (h : a ≡ b [ZMOD 4294967296])
    (ha : -2147483648 ≤ a ∧ a ≤ 2147483647) (hb : -2147483648 ≤ b ∧ b ≤ 2147483647) : a = b := by
  rw [Int.ModEq] at h
  omega

/-- **The hash of a text is the polynomial of its code units, wrapped to 32 bits.**
For every text the hash is the one number of the 32-bit signed range that is congruent
modulo `2^32` to this polynomial.  So the hash of a text put before another is
multiplied by a power of 31, once for each code unit of the other text; a character
above `U+FFFF` has two of these, and every other character has one. -/
theorem textHash_eq_polynomial (text : String) :
    (∀ hash : Int, hash = textHash text ↔
      (-2147483648 ≤ hash ∧ hash ≤ 2147483647) ∧
        hash ≡ hashPolynomial (textUnits text) [ZMOD 4294967296]) ∧
    ∀ s t : String,
      textHash (s ++ t) ≡ textHash s * 31 ^ (textUnits t).length + textHash t
        [ZMOD 4294967296] ∧
      (textUnits t).length = t.length + t.toList.countP (0xFFFF < ·.toNat) := by
  refine ⟨fun hash => ⟨?_, fun ⟨hbounds, hcongr⟩ => ?_⟩, fun s t =>
    ⟨textHash_append s t, length_textUnits t⟩⟩
  · rintro rfl
    exact ⟨textHash_bounds text, textHash_modEq text⟩
  · exact eq_of_modEq_of_bounds (hcongr.trans (textHash_modEq text).symm) hbounds
      (textHash_bounds text)

/-- A text with a character of two code units: two surrogates between two letters. -/
example : textUnits "a😀b" = [97, 0xD83D, 0xDE00, 98] ∧
    textHash "a😀b" = ((97 * 31 + 0xD83D) * 31 + 0xDE00) * 31 + 98 := by
  decide +kernel

end Labyrinth
