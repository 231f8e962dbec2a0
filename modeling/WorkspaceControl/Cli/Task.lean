import WorkspaceControl.Cli.Arguments
import WorkspaceControl.Cli.Resolution
import WorkspaceControl.Cli.Styled
import WorkspaceControl.Logs.Live

/-!
# Tasks

A command runs as a task: it talks to the service, prints lines, and may fail. What was printed
before a failure stays printed. A failure says what the command was about to do and why that did not
work, which is told from the outside inwards.
-/

namespace WorkspaceControl.Cli

open Rpc

inductive CommandFault where
  | settings (fault : SettingsFault)
  | call (failure : Failure)
  /-- The workspaces could not be listed to find the one that is meant. -/
  | listing (failure : Failure)
  | resolution (fault : ResolutionFault)
  /-- The root of a new workspace leads nowhere. -/
  | root (path : String) (fault : PathFault)
  /-- A variable for a new process has no value. -/
  | binding (pair : String)
  | noProgram
  | events (failure : Failure)
  /-- The events of one log could not be fetched. -/
  | eventsOf (log : String) (failure : Failure)

/-- What a failure says, from the outside inwards: what does not decode is told with the reason once
more. -/
def reasons (failure : Failure) : List String :=
  match failure with
  | .decode e => [failure.message, e.message]
  | _ => [failure.message]

namespace CommandFault

/-- What a fault says, from the outside inwards. -/
def messages : CommandFault → List String
  | settings fault => [fault.message]
  | call failure => reasons failure
  | listing failure => "Failed to fetch workspaces for resolution" :: reasons failure
  | resolution fault => fault.reasons
  | root path fault => ["Failed to resolve workspace root '" ++ path ++ "'", fault.message]
  | binding pair => ["Invalid environment variable '" ++ pair ++ "': expected KEY=VALUE"]
  | noProgram => ["A program to run is required"]
  | events failure => "Failed to fetch log events" :: reasons failure
  | eventsOf log failure =>
    ("Failed to fetch events of log '" ++ log ++ "'") :: reasons failure

end CommandFault

/-- What a task changes: the network it talks over, and the lines printed so far. -/
structure Desk where
  network : Network
  printed : List Line

abbrev Task := ExceptT CommandFault (StateM Desk)

namespace Task

def print (lines : List Line) : Task Unit :=
  modify fun desk => { desk with printed := desk.printed ++ lines }

/-- Fails with a fault of what went wrong, if something did. -/
def orElse {ε α : Type} (fault : ε → CommandFault) : Except ε α → Task α
  | .ok a => return a
  | .error e => throw (fault e)

/-- Talks over the network. -/
def talk {α : Type} (exchange : StateM Network α) : Task α :=
  modifyGet fun desk =>
    let (a, network) := exchange.run desk.network
    (a, { desk with network })

/-- Makes a call that has to succeed. -/
def perform (client : Client) (call : Call) : Task call.Result := do
  orElse .call (← talk (client.perform call))

end Task

/-- What a command runs with: its settings, a client made of them, and its surroundings. -/
structure Context where
  settings : Settings
  client : Client
  surroundings : Surroundings

/-- The id of the workspace that is meant. -/
def Context.resolve (c : Context) : Task String := do
  let answered ← Task.talk (c.client.perform (.service .describeWorkspaces))
  let listed : List WorkspaceDescription ← Task.orElse .listing answered
  Task.orElse .resolution (Cli.resolve c.surroundings c.settings.workspace listed)

end WorkspaceControl.Cli
