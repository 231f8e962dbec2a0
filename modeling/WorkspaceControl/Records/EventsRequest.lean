import WorkspaceControl.Records.Log

/-!
# Requests for events

A request for events names some logs and may ask for a page of them. The fields of the page request
stand beside the list of logs instead of in an object of their own, and are absent without one.

Reading takes `logs` at once and sets every other member aside. If those decode as a page request it
is one; if they do not, for whatever reason, the request has none. So a fault in a page request is
never reported, but the members set aside still have to be JSON.
-/

namespace WorkspaceControl

open Wire Brackets

/-- Asks for events of some logs. -/
structure EventsRequest where
  logs : List String
  pagination : Option Pagination
  deriving DecidableEq, Repr

namespace EventsRequest

/-- The name of the record in messages. -/
def title : String := "struct GetEvents"

/-- The only field with a place of its own. -/
def logsField : String := "logs"

def encode (r : EventsRequest) : Json :=
  let page :=
    match r.pagination with
    | some p => Pagination.fields.encode p.pack
    | none => []
  .object ((logsField, .array (r.logs.map .string)) :: page)

/-- What has been met of a request: its logs, and the members set aside. -/
structure Gathered where
  logs : Option (List String)
  setAside : List (String × Json)

/-- Nothing has been met. -/
def Gathered.nothing : Gathered := ⟨none, []⟩

/-- The page request of some members, if they are one. -/
def page? (members : List (String × Json)) : Option Pagination :=
  match (Record.shape Pagination).ofJson .setAside (.object members) with
  | .ok data => some (Pagination.unpack data)
  | .error _ => none

/-- The request of what has been met. -/
def Gathered.finish (g : Gathered) : Except Mismatch EventsRequest :=
  match g.logs with
  | some logs => .ok ⟨logs, page? g.setAside⟩
  | none => .error (.missingField logsField)

/-- Reads a member. What is set aside lies one bracket deep already. -/
def readMember (g : Gathered) (key : String) : Reader Gathered := fun text =>
  if key = logsField then do
    let (logs, rest) ← readSlot logsField (Shape.list .string).read g.logs text
    return ({ g with logs }, rest)
  else do
    let (value, rest) ← colon text >>= Json.readValue (Json.deepest - 1)
    return ({ g with setAside := g.setAside ++ [(key, value)] }, rest)

def read : Reader EventsRequest := fun text =>
  match skipBlanks text with
  | '\x7b' :: rest => do
    let (gathered, rest) ← readObject readMember .nothing rest
    settle gathered.finish rest
  | text => refuse (.record title) text

def fill (g : Gathered) (key : String) (value : Json) : Except Mismatch Gathered :=
  if key = logsField then
    match g.logs with
    | some _ => .error (.duplicateField logsField)
    | none => do return { g with logs := some (← toList toText value) }
  else .ok { g with setAside := g.setAside ++ [(key, value)] }

def ofJson : Json → Except Mismatch EventsRequest
  | .object members => do
    let gathered ← members.foldlM (fun g (key, value) => fill g key value) .nothing
    gathered.finish
  | v => .error (.wrongType v.found (.record title))

end EventsRequest

instance : Codec EventsRequest where
  encode := EventsRequest.encode
  read text := placed text.toList (Json.readWhole EventsRequest.read text.toList)
  ofJson value := unplaced (EventsRequest.ofJson value)

end WorkspaceControl
