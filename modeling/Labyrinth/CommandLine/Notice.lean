/-
# Requests for information

The command can be asked for its version, in one line or with the notices that
go with it, and for a summary of its options.
-/

namespace Labyrinth.CommandLine

/-- A request for information. -/
inductive Notice
  | version
  | longVersion
  | help
deriving DecidableEq, Repr

namespace Notice

/-- The lines that a request shows. -/
def lines : Notice → List String
  | version => ["pathquest 0.1.0"]
  | longVersion =>
    ["pathquest 0.1.0",
      "Copyright 2025 Hervé Quatremain",
      "License GPLv3+: GNU GPL version 3 or later <https://gnu.org/licenses/gpl.html>.",
      "This is free software: you are free to change and redistribute it.",
      "There is NO WARRANTY, to the extent permitted by law."]
  | help =>
    ["Guide the character through a seeded maze with a program of direction blocks",
      "",
      "Usage: pathquest [OPTIONS]",
      "",
      "Options:",
      "  -s, --seed <SEED>        Maze seed. A random seed is used when not provided",
      "  -W, --width <WIDTH>      Maze width, in cells [default: 15]",
      "  -H, --height <HEIGHT>    Maze height, in cells [default: 15]",
      "  -p, --program <PROGRAM>  Comma-separated list of moves to run",
      "  -a, --animate            Run the program one step at a time",
      "      --solve              Print a shortest program that reaches the goal",
      "  -j, --json               Print the maze and the results in JSON format",
      "  -d, --debug              Enable debug messages",
      "  -h, --help               Print help",
      "  -V, --version            Print version"]

/-- What a request prints. -/
def text (n : Notice) : String := String.join (n.lines.map (· ++ "\n"))

end Notice

end Labyrinth.CommandLine
