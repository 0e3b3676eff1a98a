/-
# Invented seeds

A player who names no seed gets an invented one: six characters, each drawn
among the letters of both cases and the digits and then made small, so a letter
is twice as likely as a digit.
-/

namespace Labyrinth

/-- The characters that a draw selects from. -/
def seedAlphabet : List Char :=
  "ABCDEFGHIJKLMNOPQRSTUVWXYZabcdefghijklmnopqrstuvwxyz0123456789".toList

/-- Draws a number of characters. -/
def drawCharacters : Nat → StdGen → List Char × StdGen
  | 0, g => ([], g)
  | n + 1, g =>
    let (i, g) := randNat g 0 (seedAlphabet.length - 1)
    let (rest, g) := drawCharacters n g
    ((seedAlphabet.getD i 'a').toLower :: rest, g)

/-- The length of an invented seed. -/
def inventedSeedLength : Nat := 6

/-- An invented seed. -/
def inventSeed (g : StdGen) : String × StdGen :=
  let (characters, g) := drawCharacters inventedSeedLength g
  (String.ofList characters, g)

end Labyrinth
