import WorkspaceControl.Logs.Store
import WorkspaceControl.Rpc.Failure

/-!
# Settings of the command line

What every command needs to know: where the service is, which workspace is meant, and how logs are
followed. All times are in milliseconds.
-/

namespace WorkspaceControl.Cli

inductive SettingsFault where
  | connection (fault : Rpc.SettingsFault)
  | zeroBuffer
  | zeroInterval
  | emptyWorkspace
  deriving DecidableEq, Repr

def SettingsFault.message : SettingsFault → String
  | connection fault => (Rpc.Failure.invalidSettings fault).message
  | zeroBuffer => "log_buffer_size must be greater than 0"
  | zeroInterval => "poll_interval must be greater than 0"
  | emptyWorkspace => "workspace cannot be empty"

/-- What every command needs to know. -/
structure Settings where
  url : String
  /-- The id of a workspace or the beginning of one. Without it, the workspace at the current
  directory is meant. -/
  workspace : Option String
  /-- How many events of logs are kept. -/
  logBufferSize : Nat
  /-- How long to wait between two fetches of events. -/
  pollInterval : Nat
  /-- How long a request may take. -/
  timeout : Option Nat
  deriving DecidableEq, Repr

namespace Settings

/-- The part of the settings that concerns the connection. -/
def connection (s : Settings) : Rpc.Settings := ⟨s.url, s.timeout⟩

/-- Checks settings; the first fault found counts. -/
def validate (s : Settings) : Except SettingsFault Unit :=
  match s.connection.validate with
  | .error fault => .error (.connection fault)
  | .ok () =>
    if s.logBufferSize = 0 then .error .zeroBuffer
    else if s.pollInterval = 0 then .error .zeroInterval
    else if s.workspace = some "" then .error .emptyWorkspace
    else .ok ()

/-- How many milliseconds lie between two fetches unless told otherwise. -/
def standardInterval : Nat := 250

end Settings

end WorkspaceControl.Cli
