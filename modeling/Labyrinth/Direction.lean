/-
# Directions

The four moves that a character can make, in the order `up`, `down`, `left`,
`right`.  The order matters: it is the one in which carving shuffles them, in
which a search tries them, and in which two of them compare.
-/

namespace Labyrinth

/-- A move by one cell. -/
inductive Direction
  | up
  | down
  | left
  | right
deriving DecidableEq, Repr, Ord

namespace Direction

/-- The four directions in their order. -/
def all : Vector Direction 4 := #v[up, down, left, right]

/-- The horizontal displacement of one move; the x axis points right. -/
def dx : Direction → Int
  | up | down => 0
  | left => -1
  | right => 1

/-- The vertical displacement of one move; the y axis points down. -/
def dy : Direction → Int
  | up => -1
  | down => 1
  | left | right => 0

/-- The name of a direction, as programs are written. -/
def name : Direction → String
  | up => "up"
  | down => "down"
  | left => "left"
  | right => "right"

/-- Directions are written by their names. -/
instance : ToString Direction := ⟨name⟩

/-- A text that names no direction. -/
structure UnknownName where
  text : String
deriving DecidableEq, Repr

/-- The wording of the error. -/
def UnknownName.message (e : UnknownName) : String :=
  "invalid variant: " ++ e.text

/-- Reads a name.  With `ignoreCase` the letters A to Z count as their small
forms; nothing else is forgiven. -/
def parse (ignoreCase : Bool) (text : String) : Except UnknownName Direction :=
  let wanted := if ignoreCase then text.map Char.toLower else text
  match all.toList.find? fun d => d.name = wanted with
  | some d => .ok d
  | none => .error ⟨text⟩

/-- Every direction is one of the four. -/
theorem mem_all (d : Direction) : d ∈ all.toList := by
  cases d <;> decide

end Direction

end Labyrinth
