import WorkspaceControl.Rpc.Failure
import WorkspaceControl.Rpc.Url

/-!
# Clients of the service

A client knows the base address of the service, without slashes at its end, and the time limit of a
request.
-/

namespace WorkspaceControl.Rpc

structure Client where
  baseUrl : String
  timeout : Option Nat
  deriving DecidableEq, Repr

namespace Client

/-- A client without a time limit. -/
def new (baseUrl : String) : Client := ⟨trimSlashes baseUrl, none⟩

/-- A client of settings that are in order. -/
def ofSettings (s : Settings) : Except Failure Client :=
  match s.validate with
  | .ok () => .ok ⟨trimSlashes s.baseUrl, s.timeout⟩
  | .error fault => .error (.invalidSettings fault)

/-- The address of a path with a query. -/
def url (c : Client) (path : String) (query : List QueryPair) : String :=
  buildUrl c.baseUrl path query

end Client

end WorkspaceControl.Rpc
