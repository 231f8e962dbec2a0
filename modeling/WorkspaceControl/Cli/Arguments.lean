import WorkspaceControl.Cli.Settings
import WorkspaceControl.Cli.Switches
import WorkspaceControl.Dictionary
import WorkspaceControl.Rpc.Call

/-!
# Command lines

A command line is switches that hold for every command, the name of a command or of a group of
commands and then of a command, and what that command takes. `parse` makes an `Invocation` of it:
settings, filled up from the environment and from defaults, and the command.
-/

namespace WorkspaceControl.Cli

structure NewProcess where
  name : String
  directory : Option String
  /-- Pairs as they were given, `KEY=VALUE` each. -/
  environment : List String
  /-- The program and its arguments. -/
  command : List String
  deriving DecidableEq, Repr

/-- What the command line asks for. -/
inductive Command where
  | version
  | upgrade
  | listWorkspaces
  | createWorkspace (root : String)
  | describeWorkspace
  | listProcesses
  | createProcess (process : NewProcess)
  | act (action : Rpc.ComponentAction) (reference : String)
  | refreshProcesses
  | logs (names : List String) (follow : Bool)
  deriving DecidableEq, Repr

structure Invocation where
  settings : Settings
  command : Command
  deriving DecidableEq, Repr

/-- A command by its names, with how its words are read. -/
structure Entrance where
  names : List String
  level : Level
  /-- The command of the switches given, the positionals and the words after a bare `--`, unless
  something is missing. -/
  command : Given → List String → List String → Option Command

namespace Entrance

/-- A command that takes nothing. -/
def bare (names : List String) (command : Command) : Entrance :=
  ⟨names, ⟨[], .upTo 0⟩, fun _ _ _ => some command⟩

/-- A command that takes one word. -/
def one (names : List String) (command : String → Command) : Entrance where
  names
  level := ⟨[], .upTo 1⟩
  command _ words _ := words.head?.map command

end Entrance

def workspaceCommands : List Entrance :=
  [.bare ["list", "ls"] .listWorkspaces, .one ["create"] .createWorkspace,
    .bare ["describe"] .describeWorkspace]

/-- The switches of the command that creates a process. -/
def processSwitches : List Switch := [⟨"directory", none, .text⟩, ⟨"env", some 'e', .texts⟩]

/-- All values given for a switch. -/
def allGiven (given : Given) (name : String) : List String :=
  (given.filter (·.1 = name)).map Prod.snd

def createProcessCommand : Entrance where
  names := ["create"]
  level := ⟨processSwitches, .beforeCommand 1⟩
  command given words command :=
    match words, command with
    | [name], _ :: _ =>
      some (.createProcess ⟨name, given.lookup "directory", allGiven given "env", command⟩)
    | _, _ => none

def processCommands : List Entrance :=
  [.bare ["list", "ps"] .listProcesses, createProcessCommand, .one ["start"] (.act .start),
    .one ["stop"] (.act .stop), .one ["restart"] (.act .restart),
    .one ["delete", "rm"] (.act .delete), .bare ["refresh"] .refreshProcesses]

def logsCommand : Entrance where
  names := ["logs"]
  level := ⟨[⟨"follow", some 'f', .nothing⟩], .any⟩
  command given words _ := some (.logs words (given.lookup "follow").isSome)

/-- The commands outside of groups. -/
def plainCommands : List Entrance :=
  [.bare ["version"] .version, .bare ["upgrade"] .upgrade, logsCommand]

/-- The groups of commands, by name. -/
def groups : List (String × List Entrance) :=
  [("workspace", workspaceCommands), ("process", processCommands)]

/-- The switches that hold for every command. -/
def commonSwitches : List Switch :=
  [⟨"url", none, .text⟩, ⟨"workspace", some 'w', .text⟩, ⟨"log-buffer-size", none, .number⟩,
    ⟨"poll-interval-ms", none, .number⟩, ⟨"timeout-secs", none, .number⟩]

/-- A level whose words name branches. -/
def branching (switches : List Switch) : Level := ⟨switches, .branches⟩

def find? (entrances : List Entrance) (name : String) : Option Entrance :=
  entrances.find? (·.names.contains name)

/-- What comes of asking for help with names after the word `help`: help, if the names lead to a
command or to a group. -/
def helpOn (entrances : List Entrance) (inner : List (String × List Entrance)) :
    List String → Halt
  | [] => .help
  | name :: names =>
    match inner.lookup name with
    | some entrances =>
      match names with
      | [] => .help
      | [name] =>
        if name = helpName ∨ (find? entrances name).isSome then .help else .usage
      | _ => .usage
    | none =>
      if (name = helpName ∨ (find? entrances name).isSome) ∧ names = [] then .help else .usage

def Entrance.read (e : Entrance) (words : List String) : Except Halt Command := do
  match ← e.level.read .start words with
  | .ended p rest =>
    match e.command p.given p.words rest with
    | some command => return command
    | none => .error .usage
  | .branch _ _ _ => .error .usage

def readGroup (entrances : List Entrance) (words : List String) : Except Halt Command := do
  match ← (branching []).read .start words with
  | .ended _ _ => .error .usage
  | .branch _ name rest =>
    match find? entrances name with
    | some e => e.read rest
    | none => .error (if name = helpName then helpOn entrances [] rest else .usage)

/-- Reads what belongs to the first word that is no switch. -/
def readCommand (name : String) (words : List String) : Except Halt Command :=
  match groups.lookup name with
  | some entrances => readGroup entrances words
  | none =>
    match find? plainCommands name with
    | some e => e.read words
    | none => .error (if name = helpName then helpOn plainCommands groups words else .usage)

/-- The variables that are set, by name. -/
abbrev Environment := Dictionary String

/-- The value of a common switch: as given, or else from the environment. -/
def setting (given : Given) (environment : Environment) (switch fallback : String) :
    Option String :=
  (given.lookup switch).or (environment.get? fallback)

/-- The number of a common switch that may be left out. -/
def numberSetting (value : Option String) : Except Halt (Option Nat) :=
  match value with
  | none => .ok none
  | some text =>
    match number? text with
    | some n => .ok (some n)
    | none => .error .usage

def settingsOf (given : Given) (environment : Environment) : Except Halt Settings := do
  let value := setting given environment
  let size ← numberSetting (value "log-buffer-size" "EXO_LOG_BUFFER_SIZE")
  let interval ← numberSetting (given.lookup "poll-interval-ms")
  let timeout ← numberSetting (value "timeout-secs" "EXO_TIMEOUT")
  return {
    url := (value "url" "EXO_URL").getD Rpc.defaultBaseUrl
    workspace := value "workspace" "EXO_WORKSPACE"
    logBufferSize := size.getD Logs.Store.standardCapacity
    pollInterval := interval.getD Settings.standardInterval
    timeout := timeout.map (1000 * ·) }

/-- Reads a command line in an environment. -/
def parse (environment : Environment) (words : List String) : Except Halt Invocation := do
  match ← (branching commonSwitches).read .start words with
  | .ended _ _ => .error .usage
  | .branch p name rest =>
    -- The command comes first: help asked for there is given whatever the last value here is.
    let command ← readCommand name rest
    let p ← p.settle
    return ⟨← settingsOf p.given environment, command⟩

end WorkspaceControl.Cli
