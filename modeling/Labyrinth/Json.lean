/-
# JSON texts

The part of JSON that reports need: integers, texts, arrays, and objects whose
fields keep their order.  A value is written on one line without blanks
(`Json.compact`) or over several lines with two blanks per level
(`Json.pretty`).
-/

namespace Labyrinth

/-- A JSON value. -/
inductive Json
  | num (n : Int)
  | str (s : String)
  | arr (items : List Json)
  | obj (fields : List (String × Json))

namespace Json

/-- A character inside a quoted text: quotes, backslashes and control
characters are escaped, with a short form for those that have one. -/
def escape (c : Char) : List Char :=
  match c with
  | '"' => ['\\', '"']
  | '\\' => ['\\', '\\']
  | '\x08' => ['\\', 'b']
  | '\x0c' => ['\\', 'f']
  | '\n' => ['\\', 'n']
  | '\r' => ['\\', 'r']
  | '\t' => ['\\', 't']
  | c =>
    if c.toNat < 0x20 then
      ['\\', 'u', '0', '0', Nat.digitChar (c.toNat / 16), Nat.digitChar (c.toNat % 16)]
    else [c]

/-- A text in quotes. -/
def quote (s : String) : String := String.ofList ('"' :: s.toList.flatMap escape ++ ['"'])

/-- How the parts of arrays and objects are set: what stands before a part or a
closing bracket at a depth, and what stands between a name and its value. -/
structure Layout where
  lineBreak : Nat → String
  colon : String

/-- Everything on one line, without blanks. -/
def Layout.compact : Layout := ⟨fun _ => "", ":"⟩

/-- Every part on a line of its own, with two blanks per level. -/
def Layout.pretty : Layout :=
  ⟨fun depth => String.ofList ('\n' :: List.replicate (2 * depth) ' '), ": "⟩

/-- Puts parts between brackets. -/
def Layout.enclose (l : Layout) (depth : Nat) (left right : String) (parts : List String) :
    String :=
  if parts.isEmpty then left ++ right
  else
    let lineBreak := l.lineBreak (depth + 1)
    left ++ lineBreak ++ ("," ++ lineBreak).intercalate parts ++ l.lineBreak depth ++ right

mutual

/-- The text of a value at a depth. -/
def render (l : Layout) (depth : Nat) : Json → String
  | num n => toString n
  | str s => quote s
  | arr items => l.enclose depth "[" "]" (renderItems l (depth + 1) items)
  | obj fields => l.enclose depth "\x7b" "\x7d" (renderFields l (depth + 1) fields)

/-- The texts of the items of an array. -/
def renderItems (l : Layout) (depth : Nat) : List Json → List String
  | [] => []
  | item :: items => render l depth item :: renderItems l depth items

/-- The texts of the fields of an object. -/
def renderFields (l : Layout) (depth : Nat) : List (String × Json) → List String
  | [] => []
  | (name, value) :: fields =>
    (quote name ++ l.colon ++ render l depth value) :: renderFields l depth fields

end

/-- The text of a value on one line. -/
def compact (j : Json) : String := j.render .compact 0

/-- The text of a value over several lines. -/
def pretty (j : Json) : String := j.render .pretty 0

end Json

end Labyrinth
