import WorkspaceControl.Records.EventsRequest
import WorkspaceControl.Remote.Codec
import WorkspaceControl.Rpc.Failure

/-!
# The store of log events

A store keeps the latest events of the logs that are watched, up to a capacity. Events come page by
page: a fetch asks for what follows the store's cursor, and a page that arrives is put behind the
events held, the oldest of which leave when there are too many.

Fetches may overlap. Each has a number, and only the one issued last may still change the store when
its reply arrives; the reply of an earlier one is handed to its caller and otherwise forgotten.
Whatever starts again from the beginning drops the cursor and the events held when its fetch is
issued, so the store never holds events of other logs than those watched.
-/

namespace WorkspaceControl.Logs

/-- What a fetch brings: a page of events, or why there is none. -/
abbrev Reply := Except Rpc.Failure EventsPage

/-- A store of log events. -/
structure Store where
  /-- The logs that are watched, in the order in which they were added. -/
  watched : List String
  /-- The events held, oldest first, and how the latest fetch stands. -/
  events : Remote (List LogEvent)
  /-- How many events are held at most. -/
  capacity : Nat
  /-- Where the next fetch goes on, at the beginning without one. -/
  cursor : Option String
  /-- The number of the fetch issued last. It stands for a counter of 64 bits, and is unbounded since no
  run issues so many fetches. -/
  latest : Nat

/-- A fetch that has been issued. -/
structure Fetch where
  number : Nat
  logs : List String
  cursor : Option String
  deriving DecidableEq, Repr

/-- What a fetch asks for. -/
def Fetch.request (f : Fetch) : EventsRequest := ⟨f.logs, some (.after f.cursor)⟩

namespace Store

/-- How many events a store holds unless told otherwise. -/
def standardCapacity : Nat := 1000

/-- A store that watches no log and has fetched nothing. -/
def empty (capacity : Nat) : Store := ⟨[], .idle, capacity, none, 0⟩

/-- The events held. -/
def held (s : Store) : List LogEvent := s.events.data?.getD []

/-- The last so many items of a list. -/
def lastOf {α : Type} (count : Nat) (items : List α) : List α := items.drop (items.length - count)

/-- Whether a log is watched already as it should be. -/
def agrees (s : Store) (log : String) (visible : Bool) : Bool :=
  decide (log ∈ s.watched) == visible

/-- Starts or stops watching a log. -/
def watch (s : Store) (log : String) (visible : Bool) : Store :=
  if s.agrees log visible then s
  else if visible then { s with watched := s.watched ++ [log] }
  else { s with watched := s.watched.filter (· ≠ log) }

/-- How the events stand while a fetch is under way. One that starts from the beginning shows no
earlier events. -/
def underWay (fromStart : Bool) : Remote (List LogEvent) → Remote (List LogEvent)
  | .idle | .pending | .error _ => .pending
  | .success data | .refetching data => .refetching (if fromStart then [] else data)

/-- Issues the next fetch. -/
def issue (s : Store) (fromStart : Bool) : Fetch × Store :=
  -- The cursor goes now and not when the page arrives: a later fetch that goes on from here has to
  -- start from the beginning too, even if this one is never answered.
  let cursor := if fromStart then none else s.cursor
  let number := s.latest + 1
  (⟨number, s.watched, cursor⟩,
    { s with events := underWay fromStart s.events, cursor, latest := number })

/-- Puts a page behind the events held. -/
def add (s : Store) (page : EventsPage) : Store :=
  { s with
    events := .success (lastOf s.capacity (s.held ++ page.events))
    cursor := some page.cursor }

/-- Takes the reply of a fetch; only that of the fetch issued last has an effect. -/
def complete (s : Store) (number : Nat) (reply : Reply) : Store :=
  if number = s.latest then
    match reply with
    | .ok page => s.add page
    | .error failure => { s with events := .error failure.message }
  else s

/-! ### What each operation does to the parts of a store -/

@[simp] theorem lastOf_length {α : Type} (items : List α) : lastOf items.length items = items := by
  simp [lastOf]

theorem length_lastOf {α : Type} (count : Nat) (items : List α) :
    (lastOf count items).length = min count items.length := by
  simp only [lastOf, List.length_drop]
  omega

/-- A short list is kept whole. -/
theorem lastOf_of_length_le {α : Type} {count : Nat} {items : List α} (h : items.length ≤ count) :
    lastOf count items = items := by
  simp [lastOf, Nat.sub_eq_zero_of_le h]

/-- Items that leave when there are too many never come back: keeping the last of a list whose front
has been cut already loses nothing more. -/
theorem lastOf_lastOf_append {α : Type} (count : Nat) (front back : List α) :
    lastOf count (lastOf count front ++ back) = lastOf count (front ++ back) := by
  simp only [lastOf, List.length_append, List.length_drop]
  by_cases h : front.length ≤ count
  · simp [Nat.sub_eq_zero_of_le h]
  · rw [← List.drop_append_of_le_length (by omega), List.drop_drop]
    congr 1
    omega

@[simp] theorem watched_empty (capacity : Nat) : (empty capacity).watched = [] := rfl

@[simp] theorem cursor_empty (capacity : Nat) : (empty capacity).cursor = none := rfl

@[simp] theorem held_empty (capacity : Nat) : (empty capacity).held = [] := rfl

/-- Watching a log or not touches nothing but the list of logs. -/
theorem watch_eq (s : Store) (log : String) (visible : Bool) :
    s.watch log visible = { s with watched := (s.watch log visible).watched } := by
  unfold watch
  split
  · rfl
  · split <;> rfl

@[simp] theorem capacity_watch (s : Store) (log : String) (visible : Bool) :
    (s.watch log visible).capacity = s.capacity := by
  rw [watch_eq]

@[simp] theorem events_watch (s : Store) (log : String) (visible : Bool) :
    (s.watch log visible).events = s.events := by
  rw [watch_eq]

@[simp] theorem cursor_watch (s : Store) (log : String) (visible : Bool) :
    (s.watch log visible).cursor = s.cursor := by
  rw [watch_eq]

@[simp] theorem latest_watch (s : Store) (log : String) (visible : Bool) :
    (s.watch log visible).latest = s.latest := by
  rw [watch_eq]

@[simp] theorem watched_issue (s : Store) (fromStart : Bool) :
    (s.issue fromStart).2.watched = s.watched := rfl

@[simp] theorem capacity_issue (s : Store) (fromStart : Bool) :
    (s.issue fromStart).2.capacity = s.capacity := rfl

@[simp] theorem latest_issue (s : Store) (fromStart : Bool) :
    (s.issue fromStart).2.latest = s.latest + 1 := rfl

@[simp] theorem cursor_issue (s : Store) (fromStart : Bool) :
    (s.issue fromStart).2.cursor = if fromStart then none else s.cursor := rfl

/-- A fetch that starts from the beginning leaves nothing held, any other leaves what was shown. -/
@[simp] theorem held_issue (s : Store) (fromStart : Bool) :
    (s.issue fromStart).2.held = if fromStart then [] else s.held := by
  cases h : s.events <;> cases fromStart <;> simp [issue, held, underWay, Remote.data?, h]

@[simp] theorem number_issue (s : Store) (fromStart : Bool) :
    (s.issue fromStart).1.number = s.latest + 1 := rfl

@[simp] theorem logs_issue (s : Store) (fromStart : Bool) :
    (s.issue fromStart).1.logs = s.watched := rfl

@[simp] theorem watched_add (s : Store) (page : EventsPage) : (s.add page).watched = s.watched := rfl

@[simp] theorem capacity_add (s : Store) (page : EventsPage) :
    (s.add page).capacity = s.capacity := rfl

@[simp] theorem latest_add (s : Store) (page : EventsPage) : (s.add page).latest = s.latest := rfl

@[simp] theorem cursor_add (s : Store) (page : EventsPage) :
    (s.add page).cursor = some page.cursor := rfl

@[simp] theorem held_add (s : Store) (page : EventsPage) :
    (s.add page).held = lastOf s.capacity (s.held ++ page.events) := rfl

/-- The reply of a fetch that is not the latest changes nothing. -/
theorem complete_of_ne {s : Store} {number : Nat} (h : number ≠ s.latest) (reply : Reply) :
    s.complete number reply = s := by
  simp [complete, h]

@[simp] theorem complete_latest_ok (s : Store) (page : EventsPage) :
    s.complete s.latest (.ok page) = s.add page := by
  simp [complete]

@[simp] theorem complete_latest_error (s : Store) (failure : Rpc.Failure) :
    s.complete s.latest (.error failure) = { s with events := .error failure.message } := by
  simp [complete]

@[simp] theorem watched_complete (s : Store) (number : Nat) (reply : Reply) :
    (s.complete number reply).watched = s.watched := by
  cases reply <;> simp only [complete] <;> split <;> rfl

@[simp] theorem latest_complete (s : Store) (number : Nat) (reply : Reply) :
    (s.complete number reply).latest = s.latest := by
  cases reply <;> simp only [complete] <;> split <;> rfl

@[simp] theorem capacity_complete (s : Store) (number : Nat) (reply : Reply) :
    (s.complete number reply).capacity = s.capacity := by
  cases reply <;> simp only [complete] <;> split <;> rfl

end Store

/-- What others see of a store. -/
structure Snapshot where
  logs : List String
  events : Remote (List LogEvent)
  capacity : Nat

/-- What others see of a store now. -/
def Store.snapshot (s : Store) : Snapshot := ⟨s.watched, s.events, s.capacity⟩

namespace Snapshot

/-- A snapshot as JSON, with the events written by a given function. -/
def encodeWith (events : List LogEvent → Json) (s : Snapshot) : Json :=
  .object [("logs", .array (s.logs.map .string)), ("events", s.events.encodeWith events),
    ("logBufferSize", .number (.ofDigits false s.capacity))]

/-- A snapshot as JSON. -/
def encode : Snapshot → Json := encodeWith Wire.Codec.encode

end Snapshot

end WorkspaceControl.Logs
