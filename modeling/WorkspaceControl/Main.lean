import WorkspaceControl.Cli.Run
import WorkspaceControl.Rpc.Script

/-!
# The command line program

The outer layer of the program: it gathers the words, the environment and a script of the service's
answers from standard input, runs the program on them, prints what the report says, and ends with
its code. Colours are used if `CLICOLOR_FORCE` is set.
-/

namespace WorkspaceControl.Cli

/-- The variables that the program looks at. -/
def settingNames : List String :=
  ["EXO_URL", "EXO_WORKSPACE", "EXO_LOG_BUFFER_SIZE", "EXO_TIMEOUT"]

/-- The lines of a stream up to its end. -/
partial def allLines (stream : IO.FS.Stream) : IO (List String) := do
  let line ← stream.getLine
  if line.isEmpty then return []
  return (line.dropEndWhile (· == '\n')).toString :: (← allLines stream)

/-- The variables that are set. -/
def settingValues : IO Environment := do
  let values ← settingNames.mapM fun name => do
    return (← IO.getEnv name).map fun value => (name, value)
  return .ofList (values.filterMap id)

end WorkspaceControl.Cli

open WorkspaceControl WorkspaceControl.Cli

/-- Runs the program. -/
def main (words : List String) : IO UInt32 := do
  let directory := Path.ofText ((← IO.getEnv "PWD").getD "/")
  let color := (← IO.getEnv "CLICOLOR_FORCE").isSome
  let script := (← allLines (← IO.getStdin)).filterMap Rpc.Answer.ofLine?
  let surroundings := (FileTree.ofDirectory directory).surroundings directory
  let report := run (← settingValues) surroundings (.new .plain script) words
  IO.print (renderLines color report.printed)
  for message in report.errors do
    IO.eprintln message
  return UInt32.ofNat report.exit
