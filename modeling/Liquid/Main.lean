import Liquid.Command.Arguments
import Liquid.Command.Run

/-!
# The Command Line

Reads what a command needs, runs it, and writes what it leaves behind. Documents
are loaded with `Document.read?`.

## Main definitions

* `main`: The program.
-/

namespace Liquid

namespace Command

/-- The text of a file, if it can be read. -/
def readFile? (path : String) : IO (Option String) := do
  try
    let text ← IO.FS.readFile path
    return some text
  catch _ => return none

/-- The text that is left on a stream. -/
partial def readAll (stream : IO.FS.Stream) (done : String) : IO String := do
  let line ← stream.getLine
  if line.isEmpty then return done else readAll stream (done ++ line)

/-- The names of the files that an invocation may read. -/
def paths (invocation : Invocation) : List String :=
  ([some invocation.template, invocation.config, invocation.data].filterMap id).map normalPath

/-- The files and the input that an invocation may read. -/
def surroundings (invocation : Invocation) : IO Surroundings := do
  let files ← (paths invocation).mapM fun path => do
    let text ← readFile? path
    return (path, text)
  let wanted := invocation.template == "-" || invocation.data == some "-"
  let input ← if wanted then readAll (← IO.getStdin) "" else pure ""
  return ⟨fun path => (files.lookup path).join, input⟩

/-- Runs an invocation and gives its exit code. -/
def perform (invocation : Invocation) : IO UInt32 := do
  let out ← IO.getStdout
  let err ← IO.getStderr
  match run (← surroundings invocation) invocation Document.read? with
  | .ok report =>
    err.putStr report.errors
    out.putStr report.output
    return UInt32.ofNat report.exit
  | .error crash =>
    err.putStrLn crash.message
    return 1

end Command

end Liquid

/-- The program. -/
def main (args : List String) : IO UInt32 := do
  match Liquid.Command.read args with
  | .run invocation => Liquid.Command.perform invocation
  | .help =>
    (← IO.getStdout).putStr Liquid.Command.usage
    return 0
  | .version =>
    (← IO.getStdout).putStr Liquid.Command.versionLine
    return 0
  | .misuse =>
    (← IO.getStderr).putStr Liquid.Command.usage
    return 2
