/-
# Positions

A position is a pair of 32-bit signed coordinates; it may lie outside every
grid.  A displacement that would leave the 32-bit range either stops at its
limits (`Position.offset`) or has no result (`Position.offset?`).
-/

import Labyrinth.Direction

namespace Labyrinth

/-- Coordinates are the numbers of the 32-bit signed range. -/
abbrev IsCoordinate (n : Int) : Prop := -2147483648 ≤ n ∧ n ≤ 2147483647

/-- A pair of coordinates, `x` growing to the right and `y` growing downwards. -/
@[ext]
structure Position where
  x : Int
  y : Int
  isCoordinate_x : IsCoordinate x := by omega
  isCoordinate_y : IsCoordinate y := by omega
deriving DecidableEq

namespace Position

/-- Positions are shown as pairs. -/
instance : Repr Position where
  reprPrec p _ := repr (p.x, p.y)

/-- Positions are written `(x, y)`. -/
instance : ToString Position where
  toString p := s!"({p.x}, {p.y})"

/-- The coordinate nearest to a number. -/
def clamp (n : Int) : Int := max (-2147483648) (min n 2147483647)

/-- The nearest coordinate is one. -/
theorem isCoordinate_clamp (n : Int) : IsCoordinate (clamp n) := by
  unfold clamp; omega

/-- A coordinate is the nearest to itself. -/
theorem clamp_eq_self {n : Int} (h : IsCoordinate n) : clamp n = n := by
  unfold clamp; omega

/-- The position nearest to the point `(x, y)`. -/
def nearest (x y : Int) : Position :=
  ⟨clamp x, clamp y, isCoordinate_clamp x, isCoordinate_clamp y⟩

/-- The position at the point `(x, y)`, if there is one. -/
def ofInts? (x y : Int) : Option Position :=
  if h : IsCoordinate x ∧ IsCoordinate y then some ⟨x, y, h.1, h.2⟩ else none

/-- The position `distance` moves away.  The displacement and then the sum stop
at the limits of the range. -/
def offset (p : Position) (d : Direction) (distance : Int) : Position :=
  let shift := nearest (d.dx * distance) (d.dy * distance)
  nearest (p.x + shift.x) (p.y + shift.y)

/-- The position `distance` moves away, or nothing if the displacement or the
sum leaves the range. -/
def offset? (p : Position) (d : Direction) (distance : Int) : Option Position := do
  let shift ← ofInts? (d.dx * distance) (d.dy * distance)
  ofInts? (p.x + shift.x) (p.y + shift.y)

/-- The position one move away; at a limit of the range it stays. -/
def move (p : Position) (d : Direction) : Position := p.offset d 1

end Position

end Labyrinth
