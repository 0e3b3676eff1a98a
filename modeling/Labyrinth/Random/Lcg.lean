/-
# The random register

Reproducible random numbers: a linear congruential register that starts at the
hash of a seed and goes through `0, …, 233279`.  The same seed gives the same
numbers in every run, so a maze is shared by naming its seed.
-/

import Labyrinth.Random.Hash

namespace Labyrinth

/-- A linear congruential generator.  Its register holds the hash of the seed
until the first draw and a number below the modulus afterwards. -/
structure Lcg where
  register : Int
deriving DecidableEq, Repr

namespace Lcg

/-- The multiplier of a draw. -/
def multiplier : Int := 9301

/-- The increment of a draw. -/
def increment : Int := 49297

/-- The modulus of a draw. -/
def modulus : Int := 233280

/-- The generator of a seed. -/
def ofSeed (seed : String) : Lcg := ⟨textHash seed⟩

/-- The generator after one draw.  The remainder is never negative, also when
the hash is. -/
def advance (g : Lcg) : Lcg := ⟨(g.register * multiplier + increment) % modulus⟩

/-- The number that a draw shows: the register as a fraction of the modulus. -/
def value (g : Lcg) : Float := Float.ofInt g.register / Float.ofInt modulus

/-- The place that a draw selects among `n + 1`: the whole part of the fraction
of `n + 1`, at most `n` in spite of rounding. -/
def pick (g : Lcg) (n : Nat) : Fin (n + 1) :=
  ⟨min (g.value * Float.ofNat (n + 1)).toUInt64.toNat n, by omega⟩

end Lcg

end Labyrinth
