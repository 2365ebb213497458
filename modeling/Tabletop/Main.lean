import Tabletop.Console
import Tabletop.Random.KeyStream

/-!
# The command line

Reads lines from standard input until it ends and carries them out in one session of the console, with
dice from a seed that the system chooses.
-/

open Tabletop

/-- A seed from the system. -/
def chooseSeed : IO UInt64 := do
  return (← IO.getRandomBytes 8).foldl (fun seed byte => seed <<< 8 ||| byte.toUInt64) 0

/-- Carries out the lines that are left. -/
partial def carryOut (console : Console KeyStream) : IO Unit := do
  let out ← IO.getStdout
  out.putStr Console.prompt
  out.flush
  let text ← (← IO.getStdin).getLine
  unless text.isEmpty do
    let (console, reply) := console.line text
    out.putStr reply.printed
    (← IO.getStderr).putStr reply.reported
    carryOut console

/-- Runs the console. -/
def main : IO Unit := do
  carryOut { roller := .ofSeed (← chooseSeed) }
