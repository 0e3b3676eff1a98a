/-
# Arguments that are written are read back

The command prints programs as names of directions with commas between them, and it
reads them like this: a program that has moves is read back from its text
(`readProgram?_programText`), wherever it stands among the arguments
(`readArguments_program`).  Seeds and sizes can be written so that they are read back
as well, whatever they are, so that there are arguments for every game
(`parse?_gameArguments`).
-/

import Labyrinth.CommandLine.Run
import Labyrinth.Proofs.Lines

namespace Labyrinth.CommandLine

variable {o o' : Options} {s : Setting} {arg value : String} {args : List String}
variable {program : List Direction}

/-! ## Programs -/

/-- Splitting at a character is the splitting of the library. -/
theorem splitAt_eq_splitOn (c : Char) (cs : List Char) : splitAt c cs = cs.splitOn c := by
  induction cs with
  | nil => simp [splitAt]
  | cons d cs ih =>
    rw [splitAt, ih, List.splitOn_cons_eq_if_modifyHead]
    by_cases h : d = c
    · simp [h]
    · obtain ⟨part, parts, hparts⟩ := List.exists_cons_of_ne_nil (List.splitOn_ne_nil c cs)
      simp [h, hparts]

/-- A direction is read back from its name. -/
theorem toOption_parse_name (d : Direction) : (Direction.parse false d.name).toOption = some d := by
  cases d <;> decide

/-- The characters of a program are those of its names, with commas in between. -/
theorem toList_programText (ds : List Direction) :
    (programText ds).toList = [','].intercalate (ds.map fun d => d.name.toList) := by
  rw [programText, String.toList_intercalate, List.map_map]
  rfl

/-- **A program that has moves is read back from its text.** -/
theorem readProgram?_programText (h : program ≠ []) :
    readProgram? (programText program) = some program := by
  have hcomma : ∀ l ∈ program.map fun d => d.name.toList, ',' ∉ l := by
    intro l hl
    obtain ⟨d, -, rfl⟩ := List.mem_map.1 hl
    cases d <;> decide
  have hparts : splitAt ',' (programText program).toList =
      program.map fun d => d.name.toList := by
    rw [splitAt_eq_splitOn, toList_programText,
      List.splitOn_intercalate _ hcomma (by simpa using h)]
  rw [readProgram?, hparts]
  clear h hcomma hparts
  induction program with
  | nil => rfl
  | cons d ds ih => simp [ih, toOption_parse_name]

/-- A comma stands before the name of each move but the first. -/
theorem programText_cons (d : Direction) (ds : List Direction) :
    programText (d :: ds) = d.name ++ String.join (ds.map fun e => "," ++ e.name) := by
  rw [programText, List.map_cons, intercalate_cons, List.map_map]
  rfl

/-- The text of a program with more moves behind it. -/
theorem programText_append (h : program ≠ []) (more : List Direction) :
    programText (program ++ more) =
      programText program ++ String.join (more.map fun d => "," ++ d.name) := by
  obtain ⟨d, ds, rfl⟩ := List.exists_cons_of_ne_nil h
  rw [List.cons_append, programText_cons, programText_cons, List.map_append, String.join_append,
    String.append_assoc]

/-- The names of moves and the commas between them take one line. -/
theorem newline_notMem_programText (ds : List Direction) : '\n' ∉ (programText ds).toList := by
  have hname : ∀ d : Direction, '\n' ∉ d.name.toList := by
    intro d
    cases d <;> decide
  cases ds with
  | nil => decide
  | cons d ds => simp [programText_cons, hname]

/-- The text of a program does not look like an option. -/
theorem isValue_programText (program : List Direction) : isValue (programText program) = true := by
  unfold isValue
  cases program with
  | nil => rfl
  | cons d ds =>
    rw [programText_cons, String.toList_append]
    cases d <;> rfl

/-! ## Single arguments -/

/-- The argument that gives a value to a long option. -/
def longOption (name value : String) : String := "--" ++ name ++ "=" ++ value

/-- A long option with its value is read as the option and the value.  The name ends at the
first equality sign, so the value may have any characters. -/
theorem readArgument_longOption (name : String) (hname : Meaning.ofLong? name = some (.setting s))
    (h : '=' ∉ name.toList) (o : Options) (value : String) :
    readArgument o (longOption name value) = .ofOptions? (s.take? o value) := by
  have hlist : (longOption name value).toList =
      '-' :: '-' :: (name.toList ++ '=' :: value.toList) := by
    simp [longOption]
  have hbefore : ∀ c ∈ name.toList, decide (c ≠ '=') = true := by
    intro c hc
    simp only [decide_eq_true_iff]
    rintro rfl
    exact h hc
  rw [readArgument, hlist]
  simp only [readLong, List.takeWhile_append_of_pos hbefore, List.dropWhile_append_of_pos hbefore]
  simp [hname]

/-- An argument that is complete leaves the options to the next one. -/
theorem readArguments_of_more (h : readArgument o arg = .more o') (args : List String) :
    readArguments o (arg :: args) = readArguments o' args := by
  rw [readArguments]
  · simp only [h]
  · rintro rfl rfl
    cases h

/-- An option that needs a value takes it from the next argument. -/
theorem readArguments_of_needs (h : readArgument o arg = .needs s o') (hvalue : isValue value)
    (args : List String) :
    readArguments o (arg :: value :: args) = (s.take? o' value).bind (readArguments · args) := by
  rw [readArguments]
  · simp [h, hvalue]
  · simp

/-- **The option for the program takes the text of a program in**, wherever it
stands, and its moves come behind those that were given before. -/
theorem readArguments_program (h : program ≠ []) (o : Options) (args : List String) :
    readArguments o ("--program" :: programText program :: args) =
      readArguments { o with program := o.program ++ program } args := by
  have hneeds : readArgument o "--program" = .needs .program o := rfl
  rw [readArguments_of_needs hneeds (isValue_programText program), Setting.take?,
    readProgram?_programText h]
  rfl

/-! ## Sizes -/

/-- **A size is read back from its digits.** -/
theorem readSize?_toString {n : Nat} (h : n < 18446744073709551616) :
    readSize? (toString n) = some n := by
  have hlist : (toString n).toList = Nat.toDigits 10 n := by
    rw [Nat.toString_eq_repr, Nat.toList_repr]
  have hdigit : ∀ c ∈ Nat.toDigits 10 n, c.isDigit = true := fun c hc =>
    Nat.isDigit_of_mem_toDigits (by decide) (by decide) hc
  have hvalue : (Nat.toDigits 10 n).foldl (fun n c => n * 10 + (c.toNat - '0'.toNat)) 0 = n := by
    have hfold : Nat.ofDigitChars 10 (Nat.toDigits 10 n) 0 = _ := Nat.ofDigitChars_eq_foldl
    rw [Nat.ofDigitChars_ten_toDigits] at hfold
    simp only [Nat.mul_comm _ 10]
    exact hfold.symm
  have hplus : ∀ digits, Nat.toDigits 10 n ≠ '+' :: digits := by
    intro digits he
    have hdigit' := hdigit '+' (he ▸ List.mem_cons_self)
    exact absurd hdigit' (by decide)
  rw [readSize?, hlist]
  split
  · rename_i digits he
    exact absurd he (hplus digits)
  · simp only [hvalue, if_pos h]
    simpa [Nat.toDigits_ne_nil] using hdigit

/-! ## All arguments of a game -/

/-- The arguments that ask for the program with a text in the maze of a seed. -/
def gameArguments (seed : String) (width height : Nat) (program : String) : List String :=
  [longOption "seed" seed, longOption "width" (toString width),
    longOption "height" (toString height), "--program", program]

/-- **There are arguments for every game.** -/
theorem parse?_gameArguments {seed : String} {width height : Nat}
    (hw : width < 18446744073709551616) (hh : height < 18446744073709551616)
    (hprogram : program ≠ []) :
    parse? (gameArguments seed width height (programText program)) =
      some (.run ⟨some seed, some width, some height, program, []⟩) := by
  have hseed : readArgument .empty (longOption "seed" seed) =
      .more ⟨some seed, none, none, [], []⟩ :=
    readArgument_longOption "seed" rfl (by decide) _ _
  have hwidth : readArgument ⟨some seed, none, none, [], []⟩ (longOption "width" (toString width)) =
      .more ⟨some seed, some width, none, [], []⟩ := by
    rw [readArgument_longOption "width" rfl (by decide), Setting.take?, readSize?_toString hw]
    rfl
  have hheight : readArgument ⟨some seed, some width, none, [], []⟩
      (longOption "height" (toString height)) =
        .more ⟨some seed, some width, some height, [], []⟩ := by
    rw [readArgument_longOption "height" rfl (by decide), Setting.take?, readSize?_toString hh]
    rfl
  rw [parse?, gameArguments, readArguments_of_more hseed, readArguments_of_more hwidth,
    readArguments_of_more hheight, readArguments_program hprogram, readArguments]
  rfl

end Labyrinth.CommandLine
