/-
# The command

Prints what the command answers to its arguments, with a pause before every
frame of an animation.
-/

import Labyrinth.CommandLine.Run
import Labyrinth.Random.InventedSeed

namespace Labyrinth

/-- The pause between two frames, in milliseconds. -/
def frameDelay : UInt32 := 600

/-- A number to invent seeds from. -/
def entropy : IO Nat := do
  let bytes ← IO.getRandomBytes 8
  return bytes.toList.foldl (fun n b => n * 256 + b.toNat) 0

end Labyrinth

open Labyrinth in
/-- Runs the command. -/
def main (args : List String) : IO UInt32 := do
  let (invented, _) := inventSeed (mkStdGen (← entropy))
  let answer := CommandLine.answer args invented
  let out ← IO.getStdout
  out.putStr answer.opening
  for frame in answer.frames do
    out.flush
    IO.sleep frameDelay
    out.putStr frame
  out.putStr answer.closing
  if let some error := answer.error? then
    IO.eprintln error
  return answer.status.toUInt32
