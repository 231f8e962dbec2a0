import WorkspaceControl.Cli.Management
import WorkspaceControl.Cli.Tail

/-!
# The program

The program reads its command line, checks the settings and runs the command. It ends with code 0 if
that worked or help was asked for, with code 1 if the command failed, and with code 2 if the words
are not those of a command.
-/

namespace WorkspaceControl.Cli

open Rpc

def Command.run (c : Context) : Command → Task Unit
  | .version => c.printVersion
  | .upgrade => c.upgrade
  | .listWorkspaces => c.listWorkspaces
  | .createWorkspace root => c.createWorkspace root
  | .describeWorkspace => c.describeWorkspace
  | .listProcesses => c.listProcesses
  | .createProcess process => c.createProcess process
  | .act action reference => c.act action reference
  | .refreshProcesses => c.refreshProcesses
  | .logs names follow => c.tailLogs names follow

/-- Checks the settings and runs the command under them. -/
def Invocation.run (i : Invocation) (surroundings : Surroundings) : Task Unit := do
  Task.orElse .settings i.settings.validate
  let client ← Task.orElse .call (Client.ofSettings i.settings.connection)
  i.command.run ⟨i.settings, client, surroundings⟩

/-- What a run of the program leaves behind. -/
structure Report where
  exit : Nat
  printed : List Line
  /-- Why the command failed, from the outside inwards. -/
  errors : List String
  sent : List Request

/-- Runs the program in an environment on the words of a command line. -/
def run (environment : Environment) (surroundings : Surroundings) (network : Network)
    (words : List String) : Report :=
  match parse environment words with
  | .error .help => ⟨0, [], [], network.sent⟩
  | .error .usage => ⟨2, [], [], network.sent⟩
  | .ok invocation =>
    match (invocation.run surroundings).run.run ⟨network, []⟩ with
    | (.ok (), desk) => ⟨0, desk.printed, [], desk.network.sent⟩
    | (.error fault, desk) => ⟨1, desk.printed, fault.messages, desk.network.sent⟩

end WorkspaceControl.Cli
