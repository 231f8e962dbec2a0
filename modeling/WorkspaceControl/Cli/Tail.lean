import WorkspaceControl.Cli.Task

/-!
# Printing logs

The events of some logs, or of all of them, are printed as they stand and then, if asked for, as they
come. Each fetch adds to a store; printed is what stands in the store behind the event that was
printed last.

Following goes on over failures until the service refuses a request as faulty. It fetches at most a
given number of times; a network that answers from a script refuses every request once the script is
used up, so one fetch more than the script is long always suffices.
-/

namespace WorkspaceControl.Cli

open Rpc

def eventLine (e : LogEvent) : Line :=
  [.styled .cyan e.log, .plain " ", .styled .dimmed e.timestamp, .plain " ", .plain e.message]

/-- The events behind the last one with an id; all of them if there is none. -/
def unseen (last : Option String) (events : List LogEvent) : List LogEvent :=
  match last with
  | none => events
  | some id => (events.reverse.takeWhile (·.id ≠ id)).reverse

/-- The id of the newest event, given the one printed last. -/
def newest (last : Option String) (events : List LogEvent) : Option String :=
  match events.getLast? with
  | some e => some e.id
  | none => last

/-- Prints the events of a store that are new, and tells the id of the newest. -/
def printNew (store : Logs.Store) (last : Option String) : Task (Option String) :=
  match store.events.data? with
  | none => return last
  | some events => do
    Task.print ((unseen last events).map eventLine)
    return newest last events

/-- Runs a call of a store over the network. -/
def runStore (source : Logs.Source) (call : Logs.Call) (store : Logs.Store) :
    Task (Except Failure Unit × Logs.Store) :=
  Task.talk (call.perform source store)

/-- Watches logs one after the other. -/
def watchAll (source : Logs.Source) : List String → Logs.Store → Task Logs.Store
  | [], store => return store
  | log :: logs, store => do
    let (result, store) ← runStore source (.visibility log true) store
    Task.orElse (.eventsOf log) result
    watchAll source logs store

/-- Fetches the events of some logs, or of all logs if none is named. -/
def fetchFirst (source : Logs.Source) (logs : List String) (store : Logs.Store) : Task Logs.Store :=
  match logs with
  | [] => do
    let (result, store) ← runStore source (.refresh true) store
    Task.orElse .events result
    return store
  | logs => watchAll source logs store

/-- Fetches and prints what is new, at most so many times. -/
def follow (source : Logs.Source) : (fetches : Nat) → Logs.Store → Option String → Task Unit
  | 0, _, _ => return ()
  | fetches + 1, store, last => do
    let (result, store) ← runStore source (.refresh false) store
    match result with
    | .ok () =>
      let last ← printNew store last
      follow source fetches store last
    | .error failure =>
      -- The store keeps its place over a failure, so the next fetch goes on where this one was to.
      if failure.isClientError then throw (.events failure)
      else follow source fetches store last

/-- How often a network answers at most before it refuses everything. -/
def fetchesLeft (network : Network) : Nat := network.script.length + 1

/-- Prints the events of logs, and goes on if asked to. -/
def Context.tailLogs (c : Context) (logs : List String) (following : Bool) : Task Unit := do
  let id ← c.resolve
  let source : Logs.Source := ⟨c.client, id⟩
  let store ← fetchFirst source logs (.empty c.settings.logBufferSize)
  let last ← printNew store none
  if following then follow source (fetchesLeft (← get).network) store last

end WorkspaceControl.Cli
