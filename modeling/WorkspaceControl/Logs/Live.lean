import WorkspaceControl.Logs.Session
import WorkspaceControl.Rpc.Call

/-!
# Stores over a client

A store of a workspace's events fetches its pages with the calls of that workspace. One call at a
time, each runs to its end before the next begins.
-/

namespace WorkspaceControl.Logs

open Rpc

/-- Where a store gets its events: a workspace of a service. -/
structure Source where
  client : Client
  workspace : String

/-- Asks a source for events. -/
def Source.fetch (source : Source) (request : EventsRequest) : StateM Network Reply :=
  source.client.perform (.workspace source.workspace (.getEvents request))

/-- Runs a call of a store to its end. -/
def Call.perform (call : Call) (source : Source) (store : Store) :
    StateM Network (Except Failure Unit × Store) := do
  let (fetch, store) := call.start store
  let reply ← source.fetch fetch.request
  return (reply.map fun _ => (), store.complete fetch.number reply)

end WorkspaceControl.Logs
