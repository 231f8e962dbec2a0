import WorkspaceControl.Wire.Codec

/-!
# Records about logs

The events of some logs are read page by page. A page comes with a cursor, which asks for the events
after that page.
-/

namespace WorkspaceControl

open Wire

/-- One event of a log. The time is kept as the service wrote it. -/
structure LogEvent where
  id : String
  log : String
  timestamp : String
  message : String
  deriving DecidableEq, Repr

instance : Record LogEvent where
  shape := .record "struct LogEvent"
    (.cons "id" .required .string <| .cons "log" .required .string <|
      .cons "timestamp" .required .string <| .cons "message" .required .string .nil)
  pack e := (e.id, e.log, e.timestamp, e.message, ())
  unpack := fun (id, log, timestamp, message, _) => ⟨id, log, timestamp, message⟩
  unpack_pack _ := rfl

/-- A log that a workspace knows. -/
structure LogDescription where
  name : String
  lastEventAt : Option String
  deriving DecidableEq, Repr

instance : Record LogDescription where
  shape := .record "struct LogDescription"
    (.cons "name" .required .string <| .cons "lastEventAt" (.optional false false) .string .nil)
  pack d := (d.name, d.lastEventAt, ())
  unpack := fun (name, lastEventAt, _) => ⟨name, lastEventAt⟩
  unpack_pack _ := rfl

/-- Asks for the logs of some components. -/
structure LogsRequest where
  refs : List String
  deriving DecidableEq, Repr

instance : Record LogsRequest where
  shape := .record "struct DescribeLogs" (.cons "refs" .required (.list .string) .nil)
  pack r := (r.refs, ())
  unpack := fun (refs, _) => ⟨refs⟩
  unpack_pack _ := rfl

structure LogList where
  logs : List LogDescription
  deriving DecidableEq, Repr

instance : Record LogList where
  shape := .record "struct DescribeLogsResponse"
    (.cons "logs" .required (Record.shape (List LogDescription)) .nil)
  pack r := (Record.pack r.logs, ())
  unpack := fun (logs, _) => ⟨Record.unpack logs⟩
  unpack_pack r := by simp [Record.unpack_pack]

/-- How pages follow each other. -/
inductive PageKind where
  /-- A page starts right after its cursor, or at the beginning without one. -/
  | afterCursor
  deriving DecidableEq, Repr

instance : Record PageKind where
  shape := .choice ["after-cursor"]
  pack _ := ⟨0, by decide⟩
  unpack _ := .afterCursor
  unpack_pack _ := rfl

/-- Which page is asked for, with hints at how many events to send before and after the cursor. -/
structure Pagination where
  kind : PageKind
  cursor : Option String
  prev : Option UInt32
  next : Option UInt32
  deriving DecidableEq, Repr

namespace Pagination

/-- Every event after a cursor, or every event without one. -/
def after (cursor : Option String) : Pagination := ⟨.afterCursor, cursor, none, none⟩

def fields : Fields :=
  .cons "type" .required (Record.shape PageKind) <|
    .cons "cursor" (.optional false false) .string <|
    .cons "prev" (.optional false true) .word <| .cons "next" (.optional false true) .word .nil

def pack (p : Pagination) : fields.Data := (Record.pack p.kind, p.cursor, p.prev, p.next, ())

/-- The page request of some values of the fields. -/
def unpack : fields.Data → Pagination :=
  fun (kind, cursor, prev, next, _) => ⟨Record.unpack kind, cursor, prev, next⟩

end Pagination

instance : Record Pagination where
  shape := .record "struct Pagination" Pagination.fields
  pack := Pagination.pack
  unpack := Pagination.unpack
  unpack_pack _ := rfl

/-- A page of events, and the cursor that asks for what follows. -/
structure EventsPage where
  events : List LogEvent
  cursor : String
  deriving DecidableEq, Repr

instance : Record EventsPage where
  shape := .record "struct GetEventsResponse"
    (.cons "events" .required (Record.shape (List LogEvent)) <|
      .cons "cursor" .required .string .nil)
  pack p := (Record.pack p.events, p.cursor, ())
  unpack := fun (events, cursor, _) => ⟨Record.unpack events, cursor⟩
  unpack_pack r := by simp [Record.unpack_pack]

end WorkspaceControl
