/-
# Command-line options

The arguments of the command are read from left to right.  A long option is
`--name`, with a value in the next argument or after `=`.  Short flags can be
grouped, and the last option of a group may take a value: the rest of the group,
less one `=`, or the next argument.  A value in an argument of its own does not
begin with a hyphen, unless it is just one.  Every option is given at most once,
only the program can be given in parts.  A request for the version or the help
counts as soon as it is read; a mistake counts only if it stands before it.
-/

import Labyrinth.CommandLine.Notice
import Labyrinth.Direction

namespace Labyrinth.CommandLine

/-- An option without a value. -/
inductive Flag
  | animate
  | solve
  | json
  | debug
deriving DecidableEq, Repr

/-- An option with a value. -/
inductive Setting
  | seed
  | width
  | height
  | program
deriving DecidableEq, Repr

/-- What an option's name stands for. -/
inductive Meaning
  | flag (flag : Flag)
  | setting (setting : Setting)
  | notice (notice : Notice)
deriving DecidableEq, Repr

/-- The meaning of a long name. -/
def Meaning.ofLong? (name : String) : Option Meaning :=
  match name with
  | "seed" => some (.setting .seed)
  | "width" => some (.setting .width)
  | "height" => some (.setting .height)
  | "program" => some (.setting .program)
  | "animate" => some (.flag .animate)
  | "solve" => some (.flag .solve)
  | "json" => some (.flag .json)
  | "debug" => some (.flag .debug)
  | "version" => some (.notice .longVersion)
  | "help" => some (.notice .help)
  | _ => none

/-- The meaning of a short name. -/
def Meaning.ofShort? : Char → Option Meaning
  | 's' => some (.setting .seed)
  | 'W' => some (.setting .width)
  | 'H' => some (.setting .height)
  | 'p' => some (.setting .program)
  | 'a' => some (.flag .animate)
  | 'j' => some (.flag .json)
  | 'd' => some (.flag .debug)
  | 'V' => some (.notice .version)
  | 'h' => some (.notice .help)
  | _ => none

/-- What the command is asked to do; what was not given is left open. -/
structure Options where
  seed? : Option String
  width? : Option Nat
  height? : Option Nat
  program : List Direction
  flags : List Flag
deriving DecidableEq, Repr

namespace Options

/-- No option given. -/
def empty : Options := ⟨none, none, none, [], []⟩

/-- The side of a maze that is not given. -/
def defaultSide : Nat := 15

/-- The width of the maze. -/
def width (o : Options) : Nat := o.width?.getD defaultSide

/-- The height of the maze. -/
def height (o : Options) : Nat := o.height?.getD defaultSide

/-- Whether a flag is given. -/
def has (o : Options) (f : Flag) : Bool := f ∈ o.flags

end Options

/-- The command that the arguments make. -/
inductive Command
  | run (options : Options)
  | inform (notice : Notice)
deriving DecidableEq, Repr

/-- Reads a size: decimal digits after an optional plus sign, below `2^64`. -/
def readSize? (text : String) : Option Nat :=
  let digits := match text.toList with
    | '+' :: digits => digits
    | digits => digits
  if !digits.isEmpty && digits.all Char.isDigit then
    let n := digits.foldl (fun n c => n * 10 + (c.toNat - '0'.toNat)) 0
    if n < 18446744073709551616 then some n else none
  else none

/-- Splits at every occurrence of a character. -/
def splitAt (c : Char) : List Char → List (List Char)
  | [] => [[]]
  | d :: rest =>
    if d = c then [] :: splitAt c rest
    else match splitAt c rest with
      | [] => [[d]]
      | part :: parts => (d :: part) :: parts

/-- Reads a program: names of directions with commas between them. -/
def readProgram? (text : String) : Option (List Direction) :=
  (splitAt ',' text.toList).mapM fun name => (Direction.parse false (String.ofList name)).toOption

/-- Takes an option's value in. -/
def Setting.take? (o : Options) (value : String) : Setting → Option Options
  | seed => if o.seed?.isSome then none else some { o with seed? := some value }
  | width => if o.width?.isSome then none else do
    let n ← readSize? value
    return { o with width? := some n }
  | height => if o.height?.isSome then none else do
    let n ← readSize? value
    return { o with height? := some n }
  | program => do
    let moves ← readProgram? value
    return { o with program := o.program ++ moves }

/-- Takes a flag in. -/
def Flag.take? (o : Options) (f : Flag) : Option Options :=
  if o.has f then none else some { o with flags := f :: o.flags }

/-- How an argument leaves the reading. -/
inductive Progress
  /-- Go on with the next argument. -/
  | more (options : Options)
  /-- The next argument is the value of an option. -/
  | needs (setting : Setting) (options : Options)
  /-- Nothing more is read. -/
  | stop (notice : Notice)
  /-- The argument is a mistake. -/
  | wrong
deriving DecidableEq, Repr

/-- Goes on with the options, if there are any. -/
def Progress.ofOptions? : Option Options → Progress
  | some o => more o
  | none => wrong

/-- Reads a long option without its two hyphens. -/
def readLong (o : Options) (text : List Char) : Progress :=
  let name := String.ofList (text.takeWhile (· ≠ '='))
  match Meaning.ofLong? name, text.dropWhile (· ≠ '=') with
  | some (.flag f), [] => .ofOptions? (f.take? o)
  | some (.notice n), [] => .stop n
  | some (.setting s), [] => .needs s o
  | some (.setting s), _ :: value => .ofOptions? (s.take? o (String.ofList value))
  | _, _ => .wrong

/-- Reads a group of short options without its hyphen. -/
def readShort (o : Options) : List Char → Progress
  | [] => .more o
  | c :: rest =>
    match Meaning.ofShort? c with
    | some (.flag f) =>
      match f.take? o with
      | some o => readShort o rest
      | none => .wrong
    | some (.notice n) => .stop n
    | some (.setting s) =>
      match rest with
      | [] => .needs s o
      | '=' :: value => .ofOptions? (s.take? o (String.ofList value))
      | value => .ofOptions? (s.take? o (String.ofList value))
    | none => .wrong

/-- Reads one argument that is no value.  Only options are arguments. -/
def readArgument (o : Options) (arg : String) : Progress :=
  match arg.toList with
  | '-' :: '-' :: text => readLong o text
  | '-' :: c :: rest => readShort o (c :: rest)
  | _ => .wrong

/-- Whether an argument can be the value of the option before it. -/
def isValue (arg : String) : Bool :=
  match arg.toList with
  | ['-'] => true
  | '-' :: _ => false
  | _ => true

/-- Reads the arguments from left to right.  Two hyphens alone end the options,
so nothing may follow them. -/
def readArguments (o : Options) : List String → Option Command
  | [] => some (.run o)
  | ["--"] => some (.run o)
  | arg :: args =>
    match readArgument o arg with
    | .more o => readArguments o args
    | .stop n => some (.inform n)
    | .wrong => none
    | .needs s o =>
      match args with
      | [] => none
      | value :: args =>
        if isValue value then (s.take? o value).bind (readArguments · args) else none

/-- The command that a list of arguments makes, or nothing if they are wrong.
An animation and a report in JSON exclude each other. -/
def parse? (args : List String) : Option Command :=
  (readArguments .empty args).filter fun
    | .run o => !(o.has .animate && o.has .json)
    | .inform _ => true

end Labyrinth.CommandLine
