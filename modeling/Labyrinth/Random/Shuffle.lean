/-
# Shuffling

The Fisher–Yates shuffle, from the last place down: each place from the last to
the second is exchanged with a random one among itself and the places before
it.  Places are typed by the length, so no exchange can miss.
-/

import Labyrinth.Random.Lcg

namespace Labyrinth
namespace Lcg

variable {α : Type}

/-- Settles the places `i, …, 1`, one draw each. -/
def settle {n : Nat} : (i : Nat) → i < n → Vector α n → Lcg → Vector α n × Lcg
  | 0, _, items, g => (items, g)
  | i + 1, h, items, g =>
    let g := g.advance
    settle i (by omega) (items.swap (i + 1) (g.pick (i + 1))) g

/-- Shuffles the items with `n - 1` draws. -/
def shuffle {n : Nat} (items : Vector α n) (g : Lcg) : Vector α n × Lcg :=
  match n, items with
  | 0, items => (items, g)
  | n + 1, items => settle n (by omega) items g

end Lcg
end Labyrinth
