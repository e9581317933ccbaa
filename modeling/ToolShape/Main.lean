import ToolShape.CommandLine.Run

/-!
# The program

Reads the file that the arguments name, runs the command on its text, and prints.
-/

set_option autoImplicit false

open ToolShape

/-- The text of a file, if it can be read. -/
def readFile? (path : String) : IO (Option String) := do
  try
    return some (← IO.FS.readFile path)
  catch _ =>
    return none

/-- Prints what stopped the command, and gives the exit code. -/
def reportStop (stop : CommandLine.Stop) : IO UInt32 := do
  match stop.message? with
  | none => IO.eprintln "Usage: [OPTIONS] <TOOLS_FILE>"
  | some message =>
    IO.eprintln ("Error: " ++ message)
    if let some cause := stop.cause? then
      IO.eprintln ("\nCaused by:\n    " ++ cause)
  return stop.exitCode.toUInt32

def main (arguments : List String) : IO UInt32 := do
  let key ← IO.rand 0 (Nat.pow 2 32 - 1)
  let path := (CommandLine.Arguments.parse? Converter.defaultMaxDepth arguments).map (·.file)
  let text ← match path with
    | some path => readFile? path
    | none => pure none
  match CommandLine.run arguments (fun _ => text) (Name.Source.scattered key) with
  | .ok output =>
    IO.print output
    return 0
  | .error stop => reportStop stop
