import WorkspaceControl.Records.EventsRequest
import WorkspaceControl.Records.Process
import WorkspaceControl.Records.Workspace
import WorkspaceControl.Rpc.Network

/-!
# The calls of the service

Some calls are about the service itself, the others about one workspace, whose id goes into the
query. Each call has a method name, which ends its path, an optional body and a type of results; the
result is unwrapped from the record that the service sends.
-/

namespace WorkspaceControl.Rpc

open Wire

/-- Calls about the service itself. -/
inductive ServiceCall where
  | describeWorkspaces
  | createWorkspace (root : String)
  | getVersion
  | upgrade
  deriving DecidableEq

/-- Calls about the components of a workspace that name one of them. -/
inductive ComponentAction where
  | start
  | stop
  | restart
  | delete
  deriving DecidableEq, Repr

/-- Calls about one workspace. -/
inductive WorkspaceCall where
  | describe
  | apply (manifest : ManifestRequest)
  | describeProcesses
  | createProcess (name : String) (spec : ProcessSpec)
  | act (action : ComponentAction) (reference : String)
  | refreshAll
  | describeLogs (refs : List String)
  | getEvents (request : EventsRequest)
  deriving DecidableEq

def emptyBody : Json := .object []

namespace ServiceCall

def Result : ServiceCall → Type
  | describeWorkspaces => List WorkspaceDescription
  | createWorkspace _ => String
  | getVersion => VersionInfo
  | upgrade => Unit

def method : ServiceCall → String
  | describeWorkspaces => "describe-workspaces"
  | createWorkspace _ => "create-workspace"
  | getVersion => "get-version"
  | upgrade => "upgrade"

def body : ServiceCall → Json
  | createWorkspace root => Codec.encode (⟨root⟩ : WorkspaceRequest)
  | describeWorkspaces | getVersion | upgrade => emptyBody

/-- The result that a value stands for. A call that brings nothing accepts any value. -/
def ofJson : (call : ServiceCall) → Json → Except DecodeError call.Result
  | describeWorkspaces, v => WorkspaceList.workspaces <$> Codec.ofJson v
  | createWorkspace _, v => WorkspaceCreated.id <$> Codec.ofJson v
  | getVersion, v => (Codec.ofJson v : Except DecodeError VersionInfo)
  | upgrade, _ => .ok ()

end ServiceCall

namespace ComponentAction

def method : ComponentAction → String
  | start => "start-component"
  | stop => "stop-component"
  | restart => "restart-component"
  | delete => "delete-component"

end ComponentAction

namespace WorkspaceCall

def Result : WorkspaceCall → Type
  | describe => WorkspaceDescription
  | describeProcesses => List ProcessDescription
  | createProcess _ _ => String
  | describeLogs _ => List LogDescription
  | getEvents _ => EventsPage
  | apply _ | act _ _ | refreshAll => Unit

def method : WorkspaceCall → String
  | describe => "describe"
  | apply _ => "apply"
  | describeProcesses => "describe-processes"
  | createProcess _ _ => "create-component"
  | act action _ => action.method
  | refreshAll => "refresh-all-components"
  | describeLogs _ => "describe-logs"
  | getEvents _ => "get-events"

/-- The body of a call, if it has one. -/
def body? : WorkspaceCall → Option Json
  | describe => some emptyBody
  | apply manifest => some (Codec.encode manifest)
  | createProcess name spec =>
    some (Codec.encode (⟨name, processComponent, Codec.render spec⟩ : ComponentRequest))
  | act _ reference => some (Codec.encode (⟨reference⟩ : ComponentRef))
  | describeLogs refs => some (Codec.encode (⟨refs⟩ : LogsRequest))
  | getEvents request => some (Codec.encode request)
  | describeProcesses | refreshAll => none

/-- The result that a value stands for. A call that brings nothing accepts any value. -/
def ofJson : (call : WorkspaceCall) → Json → Except DecodeError call.Result
  | describe, v => WorkspaceDetails.description <$> Codec.ofJson v
  | describeProcesses, v => ProcessList.processes <$> Codec.ofJson v
  | createProcess _ _, v => ComponentCreated.id <$> Codec.ofJson v
  | describeLogs _, v => LogList.logs <$> Codec.ofJson v
  | getEvents _, v => (Codec.ofJson v : Except DecodeError EventsPage)
  | apply _, _ | act _ _, _ | refreshAll, _ => .ok ()

end WorkspaceCall

inductive Call where
  | service (call : ServiceCall)
  | workspace (id : String) (call : WorkspaceCall)
  deriving DecidableEq

namespace Call

def Result : Call → Type
  | service call => call.Result
  | workspace _ call => call.Result

def path : Call → String
  | service call => "/kernel/" ++ call.method
  | workspace _ call => "/workspace/" ++ call.method

def query : Call → List QueryPair
  | service _ => []
  | workspace id _ => [("id", id)]

/-- The body of a call, if it has one. -/
def body? : Call → Option Json
  | service call => some call.body
  | workspace _ call => call.body?

/-- The result that a value stands for. -/
def ofJson : (call : Call) → Json → Except DecodeError call.Result
  | service call => call.ofJson
  | workspace _ call => call.ofJson

/-- The result of a value that the service sent, or why there is none. -/
def decode (call : Call) (value : Json) : Except Failure call.Result :=
  match call.ofJson value with
  | .ok result => .ok result
  | .error e => .error (.decode e)

/-- The outcome of a call whose response has a status and a text. -/
def settle (call : Call) (status : Nat) (text : String) : Except Failure call.Result :=
  Rpc.settle status text >>= call.decode

end Call

def Client.perform (client : Client) (call : Call) :
    StateM Network (Except Failure call.Result) := do
  let answered ← client.send call.path call.query call.body?
  return answered >>= call.decode

end WorkspaceControl.Rpc
