/-
# The hash of a seed

A seed is any text.  Its hash is the 32-bit signed number that is congruent to
the polynomial `u₀ · 31ⁿ⁻¹ + … + uₙ₋₁` modulo `2^32`, the `uᵢ` being the UTF-16
code units of the text.
-/

namespace Labyrinth

/-- The UTF-16 code units of a character: the character's code, or the two
surrogates of a character above `U+FFFF`. -/
def utf16Units (c : Char) : List Nat :=
  if c.toNat < 0x10000 then [c.toNat]
  else [0xD800 + (c.toNat - 0x10000) / 0x400, 0xDC00 + (c.toNat - 0x10000) % 0x400]

/-- Takes one more code unit into a hash and wraps it to 32 bits. -/
def hashUnit (hash : Int) (unit : Nat) : Int := (hash * 31 + unit).bmod 4294967296

/-- The rolling hash of a text, its first code unit first. -/
def textHash (text : String) : Int := (text.toList.flatMap utf16Units).foldl hashUnit 0

end Labyrinth
