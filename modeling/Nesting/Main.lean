import Nesting.CommandLine.Basic

/-! # The program

Reads the files that the arguments name, runs the command, and prints its outcome. -/

open Nesting CommandLine

def readErrorOf : IO.Error → ReadError
  | .noFileOrDirectory .. => .notFound
  | .inappropriateType .. => .isDirectory
  | e => .other (toString e)

def readPath (path : String) : IO (Except ReadError String) := do
  try return decodeText (← IO.FS.readBinFile path)
  catch e => return .error (readErrorOf e)

def readInput : IO (Except ReadError String) := do
  return decodeText (← (← IO.getStdin).readBinToEnd)

/-- Runs the command that the arguments write. -/
def main (args : List String) : IO UInt32 := do
  let (needed, needsInput) := needs args
  let texts ← needed.mapM fun path => return (path, ← readPath path)
  let input ← if needsInput then readInput else pure (.ok "")
  let files : Files :=
    { file := fun path => (texts.lookup path).getD (.error .notFound), standardInput := input }
  let outcome := run files args
  IO.print outcome.out
  IO.eprint outcome.err
  return outcome.code.toUInt32
