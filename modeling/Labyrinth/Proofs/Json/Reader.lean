/-
# A reader of JSON texts

A reader of the JSON that reports need: integers, quoted texts, arrays and objects,
with blanks wherever JSON allows them.  It follows the grammar and knows nothing of
how texts are written.  What it reads at the beginning of a text comes with the text
that is left, and with the proof that this one is shorter (`Json.Parsed`), so that
reading ends.
-/

import Labyrinth.Json

namespace Labyrinth
namespace Json

variable {α β : Type} {cs cs' : List Char}

/-- What was read at the beginning of a text, and what is left of the text. -/
structure Parsed (α : Type) (cs : List Char) where
  value : α
  rest : List Char
  length_rest_lt : rest.length < cs.length

/-- What was read is a part of something else, in a text that is not shorter. -/
def Parsed.map (p : Parsed α cs) (f : α → β) (h : cs.length ≤ cs'.length) : Parsed β cs' :=
  ⟨f p.value, p.rest, Nat.lt_of_lt_of_le p.length_rest_lt h⟩

/-! ## Marks -/

/-- The blanks that JSON allows between the parts of a text. -/
def isBlank (c : Char) : Bool := c = ' ' || c = '\t' || c = '\n' || c = '\r'

/-- Reads the first character that is not blank. -/
def readMark : (cs : List Char) → Option (Parsed Char cs)
  | [] => none
  | c :: cs =>
    if isBlank c then (readMark cs).map (·.map id (Nat.le_succ _))
    else some ⟨c, cs, Nat.lt_succ_self _⟩

/-! ## Quoted texts -/

/-- The value of a hexadecimal digit. -/
def hexDigit? (c : Char) : Option Nat :=
  if c.isDigit then some (c.toNat - '0'.toNat)
  else if 'a' ≤ c ∧ c ≤ 'f' then some (c.toNat - 'a'.toNat + 10)
  else if 'A' ≤ c ∧ c ≤ 'F' then some (c.toNat - 'A'.toNat + 10)
  else none

/-- The character whose code has these hexadecimal digits.  Surrogates, which stand for
a character only in pairs, are refused. -/
def charOfDigits? (a b c d : Char) : Option Char := do
  let high := (← hexDigit? a) * 16 + (← hexDigit? b)
  let code := (high * 16 + (← hexDigit? c)) * 16 + (← hexDigit? d)
  if code.isValidChar then some (.ofNat code) else none

/-- The character that one behind a backslash stands for. -/
def unescape? : Char → Option Char
  | '"' => some '"'
  | '\\' => some '\\'
  | '/' => some '/'
  | 'b' => some '\x08'
  | 'f' => some '\x0c'
  | 'n' => some '\n'
  | 'r' => some '\r'
  | 't' => some '\t'
  | _ => none

/-- Reads a quoted text behind its first quote.  Control characters have to be
escaped in it. -/
def readQuoted : (cs : List Char) → Option (Parsed (List Char) cs)
  | [] => none
  | '"' :: cs => some ⟨[], cs, Nat.lt_succ_self _⟩
  | '\\' :: 'u' :: a :: b :: c :: d :: cs => do
    let e ← charOfDigits? a b c d
    (readQuoted cs).map (·.map (e :: ·) (by simp only [List.length_cons]; omega))
  | '\\' :: c :: cs => do
    let e ← unescape? c
    (readQuoted cs).map (·.map (e :: ·) (by simp only [List.length_cons]; omega))
  | c :: cs =>
    if c = '\\' ∨ c.toNat < 0x20 then none
    else (readQuoted cs).map (·.map (c :: ·) (Nat.le_succ _))

/-! ## Numbers -/

/-- Digits that are read leave a shorter text. -/
theorem length_dropWhile_isDigit_lt (h : cs.takeWhile Char.isDigit ≠ []) :
    (cs.dropWhile Char.isDigit).length < cs.length := by
  have hsplit : cs.takeWhile Char.isDigit ++ cs.dropWhile Char.isDigit = cs :=
    List.takeWhile_append_dropWhile
  have hlength := congrArg List.length hsplit
  have hpos := List.length_pos_iff.2 h
  rw [List.length_append] at hlength
  omega

/-- Reads digits.  No zero stands before others. -/
def readDigits (cs : List Char) : Option (Parsed Nat cs) :=
  if h : cs.takeWhile Char.isDigit ≠ [] then
    if cs.head? = some '0' ∧ cs.takeWhile Char.isDigit ≠ ['0'] then none
    else some ⟨Nat.ofDigitChars 10 (cs.takeWhile Char.isDigit) 0, cs.dropWhile Char.isDigit,
      length_dropWhile_isDigit_lt h⟩
  else none

/-- Reads an integer. -/
def readInt : (cs : List Char) → Option (Parsed Int cs)
  | '-' :: cs => (readDigits cs).map (·.map (fun n => -Int.ofNat n) (Nat.le_succ _))
  | cs => (readDigits cs).map (·.map Int.ofNat (Nat.le_refl _))

/-! ## Arrays and objects -/

section Series

variable {n : Nat} (close : Char)
  (entry : (cs : List Char) → cs.length < n → Option (Parsed α cs))

/-- Reads one entry or more, with commas in between, and the mark that closes them. -/
def readEntries (cs : List Char) (h : cs.length < n) : Option (Parsed (List α) cs) := do
  let ⟨x, rest, hx⟩ ← entry cs h
  let ⟨mark, rest', hmark⟩ ← readMark rest
  if mark = close then return ⟨[x], rest', by omega⟩
  else if mark = ',' then
    let ⟨xs, rest'', hxs⟩ ← readEntries rest' (by omega)
    return ⟨x :: xs, rest'', by omega⟩
  else none
termination_by cs.length

/-- Reads entries, if there are any, and the mark that closes them. -/
def readSeries (cs : List Char) (h : cs.length < n) : Option (Parsed (List α) cs) := do
  let mark ← readMark cs
  if mark.value = close then return mark.map (fun _ => []) (Nat.le_refl _)
  else readEntries close entry cs h

end Series

/-- Reads a name in quotes, a colon and a value. -/
def readField {n : Nat} (value : (cs : List Char) → cs.length < n → Option (Parsed Json cs))
    (cs : List Char) (h : cs.length < n) : Option (Parsed (String × Json) cs) := do
  let ⟨mark, rest, hmark⟩ ← readMark cs
  let ⟨name, rest', hname⟩ ← readQuoted rest
  let ⟨mark', rest'', hmark'⟩ ← readMark rest'
  let ⟨j, rest''', hj⟩ ← value rest'' (by omega)
  if mark = '"' ∧ mark' = ':' then return ⟨(String.ofList name, j), rest''', by omega⟩
  else none

/-! ## Values -/

/-- Reads a value.  Its first mark tells which kind it has. -/
def readValue (cs : List Char) : Option (Parsed Json cs) := do
  let ⟨c, rest, hc⟩ ← readMark cs
  if c = '"' then
    let s ← readQuoted rest
    return s.map (fun s => .str (String.ofList s)) (Nat.le_of_lt hc)
  else if c = '[' then
    let items ← readSeries ']' (fun cs' _ => readValue cs') rest hc
    return items.map .arr (Nat.le_of_lt hc)
  else if c = '\x7b' then
    let fields ← readSeries '\x7d' (readField fun cs' _ => readValue cs') rest hc
    return fields.map .obj (Nat.le_of_lt hc)
  else
    let n ← readInt (c :: rest)
    return n.map .num (Nat.succ_le_of_lt hc)
termination_by cs.length

/-- The value that a text is read as.  There may be blanks around it, and nothing else. -/
def read? (text : String) : Option Json := do
  let j ← readValue text.toList
  if j.rest.all isBlank then return j.value else none

end Json
end Labyrinth
