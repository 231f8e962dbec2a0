import WorkspaceControl.Rpc.Client
import WorkspaceControl.Rpc.Transport
import WorkspaceControl.Text.Body

/-!
# The network

What lies between a client and the service is a transport and a script. The transport tells where the
request for an address is sent, and refuses some addresses. Of the requests that are sent, the n-th
gets the n-th answer of the script, whatever it asks for; one that finds the script used up is refused
by the service. The requests that were sent are kept in order.
-/

namespace WorkspaceControl.Rpc

/-- A request. All are of one method, and all ask for and send JSON. -/
structure Request where
  url : String
  body : Option String
  deriving DecidableEq, Repr

namespace Request

def method : String := "POST"

/-- The media type that every request asks for and sends. -/
def mediaType : String := "application/json"

end Request

/-- How a request is answered that was sent. -/
inductive Answer where
  /-- A response with a status and a body. -/
  | response (status : Nat) (body : List UInt8)
  /-- A response whose status came, but whose body could not be read, and why. -/
  | unread (status : Nat) (reason : String)
  /-- No response, or none in time, and why. -/
  | silence (reason : String)
  deriving DecidableEq, Repr

/-- What is heard of a request: the status and the text of the response, or why there are none. -/
abbrev Heard := Except String (Nat × String)

namespace Answer

/-- The answer to every request once the script is used up. -/
def exhausted : Answer :=
  .response 410 (Utf8.bytes "\x7b\"message\":\"script exhausted\"\x7d")

/-- The statuses whose responses have no body. -/
def bodiless (status : Nat) : Bool := status = 204 ∨ status = 304

/-- What is heard of a request that is answered so. -/
def heard : Answer → Heard
  | response status body => .ok (status, if bodiless status then "" else Body.text body)
  | unread _ reason | silence reason => .error reason

end Answer

/-- What lies between a client and the service. -/
structure Network where
  transport : Transport
  /-- The answers to come. -/
  script : List Answer
  /-- The requests sent so far, in order. -/
  sent : List Request

namespace Network

/-- A network that has sent nothing yet. -/
def new (transport : Transport) (script : List Answer) : Network := ⟨transport, script, []⟩

/-- Sends a request, and brings what is heard of it. -/
def exchange (url : String) (body : Option String) : StateM Network Heard :=
  fun network =>
    match network.transport url with
    -- An address that is refused leaves the answers for the next request.
    | .error reason => (.error reason, network)
    | .ok url =>
      ((network.script.head?.getD .exhausted).heard,
        { network with script := network.script.tail, sent := network.sent ++ [⟨url, body⟩] })

end Network

/-- What a response says: its value, or why there is none. -/
def settle (status : Nat) (text : String) : Except Failure Json :=
  match refusal? status text with
  | some failure => .error failure
  | none =>
    match Json.parse text with
    | .ok value => .ok value
    | .error e => .error (.decode e)

/-- Calls a path of the service. -/
def Client.send (client : Client) (path : String) (query : List QueryPair) (body : Option Json) :
    StateM Network (Except Failure Json) := do
  match ← Network.exchange (client.url path query) (body.map fun b => b.canonical.render) with
  | .ok (status, text) => return settle status text
  | .error reason => return .error (.requestFailed reason)

end WorkspaceControl.Rpc
