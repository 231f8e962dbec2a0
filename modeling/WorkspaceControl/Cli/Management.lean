import WorkspaceControl.Cli.Task

/-!
# Commands about the service, workspaces and processes

Each command makes the calls it needs and then says what it did. A command about a workspace first
finds out which one is meant.
-/

namespace WorkspaceControl.Cli

open Rpc

/-- A mark that something was done. -/
def done : Span := .styled .green "✓"

/-- The line of something done, named in bold. -/
def doneLine (what name : String) : Line :=
  [done, .plain (" " ++ what ++ " "), .styled .bold name]

def versionLines (v : VersionInfo) : List Line :=
  let newer : List Line :=
    match v.latest, v.current with
    | some latest, false =>
      [[.styled .yellow ("A newer version is available: " ++ latest ++ " (run `exo upgrade`)")]]
    | _, _ => []
  [.plain v.installed] :: newer

def workspaceLines (w : WorkspaceDescription) : List Line :=
  [[.plain "  ", .styled .cyan "▸", .plain " Workspace ", .styled .bold w.id],
    [.plain "    Root: ", .styled .dimmed w.root], []]

def listLines (listed : List WorkspaceDescription) : List Line :=
  match listed with
  | [] => [[.styled .yellow "No workspaces found."]]
  | _ =>
    [.styled .bold s!"Found {listed.length} workspace(s):"] :: [] ::
      listed.flatMap workspaceLines

def processLine (p : ProcessDescription) : Line :=
  let status : Span :=
    if p.running then .padded .green 10 "running" else .padded .dimmed 10 "stopped"
  [.plain "  ", .padded .bold 24 p.name, .plain " ", status, .plain " ", .styled .dimmed p.id]

def processLines (processes : List ProcessDescription) : List Line :=
  match processes with
  | [] => [[.styled .yellow "No processes found."]]
  | _ => processes.map processLine

/-- The key and the value of a pair, divided at its first equals sign. -/
def splitPair? (pair : String) : Option (String × String) :=
  match Parts.divide '=' pair.toList with
  | (key, some value) => some (String.ofList key, String.ofList value)
  | (_, none) => none

/-- The variables of some pairs; of several with one key the last counts. -/
def environmentOf (pairs : List String) : Except CommandFault (Dictionary String) :=
  pairs.foldlM (fun d pair =>
    match splitPair? pair with
    | some (key, value) => .ok (d.insert key value)
    | none => .error (.binding pair)) Dictionary.empty

/-- How a new process is started. Without any pair it has no environment of its own. -/
def NewProcess.spec (p : NewProcess) : Except CommandFault ProcessSpec :=
  match p.command with
  | [] => .error .noProgram
  | program :: arguments => do
    let environment ← if p.environment = [] then pure none else some <$> environmentOf p.environment
    return ⟨p.directory, program, arguments, environment⟩

def actionWord : ComponentAction → String
  | .start => "Started"
  | .stop => "Stopped"
  | .restart => "Restarted"
  | .delete => "Deleted"

namespace Context

def printVersion (c : Context) : Task Unit := do
  let version : VersionInfo ← Task.perform c.client (.service .getVersion)
  Task.print (versionLines version)

def upgrade (c : Context) : Task Unit := do
  let _ ← Task.perform c.client (.service .upgrade)
  Task.print [[.styled .green "✓ Upgrade requested"]]

def listWorkspaces (c : Context) : Task Unit := do
  let listed : List WorkspaceDescription ← Task.perform c.client (.service .describeWorkspaces)
  Task.print (listLines listed)

/-- Registers a workspace at a directory, by what is shown of its canonical path. -/
def createWorkspace (c : Context) (root : String) : Task Unit := do
  let path ← Task.orElse (.root root) (c.surroundings.canonical (.ofText root))
  let id : String ← Task.perform c.client (.service (.createWorkspace path.display))
  Task.print [[done, .plain " Created workspace ", .styled .cyan id]]

def describeWorkspace (c : Context) : Task Unit := do
  let id ← c.resolve
  let description : WorkspaceDescription ← Task.perform c.client (.workspace id .describe)
  Task.print (workspaceLines description)

def listProcesses (c : Context) : Task Unit := do
  let id ← c.resolve
  let processes : List ProcessDescription ←
    Task.perform c.client (.workspace id .describeProcesses)
  Task.print (processLines processes)

def createProcess (c : Context) (process : NewProcess) : Task Unit := do
  let id ← c.resolve
  let spec ← Task.orElse (fun fault => fault) process.spec
  let made : String ← Task.perform c.client (.workspace id (.createProcess process.name spec))
  Task.print [doneLine "Created process" process.name ++
    [.plain " (", .styled .dimmed made, .plain ")"]]

/-- Starts, stops, restarts or deletes a process. -/
def act (c : Context) (action : ComponentAction) (reference : String) : Task Unit := do
  let id ← c.resolve
  let _ ← Task.perform c.client (.workspace id (.act action reference))
  Task.print [doneLine (actionWord action) reference]

/-- Has the state of every process read again. -/
def refreshProcesses (c : Context) : Task Unit := do
  let id ← c.resolve
  let _ ← Task.perform c.client (.workspace id .refreshAll)
  Task.print [[done, .plain " Refreshed all processes"]]

end Context

end WorkspaceControl.Cli
