import WorkspaceControl.Logs.Store

/-!
# Sessions of a store

A session is a store with the fetches that are under way. Calls start fetches, replies end them in
any order, and a call may be dropped, after which its reply can no longer come. A step says what it
asked the service for, what the caller was told, and whether those who observe the store were
notified.
-/

namespace WorkspaceControl.Logs

/-- A call to a store. -/
inductive Call where
  /-- Fetch what is new, or everything again from the beginning. -/
  | refresh (fromStart : Bool)
  /-- Watch a log or not, and fetch everything again. -/
  | visibility (log : String) (visible : Bool)
  deriving DecidableEq, Repr

namespace Call

/-- Whether a call fetches everything again. -/
def fromStart : Call → Bool
  | refresh fromStart => fromStart
  | visibility _ _ => true

/-- The store with the logs watched as a call wants them. -/
def prepare (s : Store) : Call → Store
  | refresh _ => s
  | visibility log visible => s.watch log visible

/-- Starts a call, which runs until it waits for its page. -/
def start (call : Call) (s : Store) : Fetch × Store := (call.prepare s).issue call.fromStart

end Call

/-- What happens to a session. -/
inductive Event where
  /-- A call is started; its fetch gets the next number. -/
  | start (call : Call)
  /-- A fetch is answered. -/
  | reply (number : Nat) (reply : Reply)
  /-- A call is dropped. -/
  | drop (number : Nat)

/-- A store, and the numbers of the fetches under way. -/
structure Session where
  store : Store
  waiting : List Nat

/-- What a step shows. -/
structure Outcome where
  /-- The fetch that was issued. -/
  fetch : Option Fetch
  /-- What the caller was told. -/
  result : Option (Except Rpc.Failure Unit)
  /-- Whether observers were notified. -/
  notified : Bool

namespace Session

/-- A session of a store that has fetched nothing. -/
def new (capacity : Nat) : Session := ⟨.empty capacity, []⟩

/-- One step. An answer to a fetch that is not under way is ignored. -/
def step (s : Session) : Event → Outcome × Session
  | .start call =>
    let (fetch, store) := call.start s.store
    (⟨some fetch, none, true⟩, ⟨store, fetch.number :: s.waiting⟩)
  | .reply number reply =>
    if number ∈ s.waiting then
      (⟨none, some (reply.map fun _ => ()), number = s.store.latest⟩,
        ⟨s.store.complete number reply, s.waiting.erase number⟩)
    else (⟨none, none, false⟩, s)
  | .drop number => (⟨none, none, false⟩, ⟨s.store, s.waiting.erase number⟩)

/-- All steps in order. -/
def run (s : Session) : List Event → List Outcome × Session
  | [] => ([], s)
  | event :: events =>
    let (outcome, s) := s.step event
    let (outcomes, s) := s.run events
    (outcome :: outcomes, s)

end Session

end WorkspaceControl.Logs
