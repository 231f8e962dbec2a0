import WorkspaceControl.Json.Printer
import WorkspaceControl.Json.Reader
import WorkspaceControl.Rpc.Settings

/-!
# How a call fails

A call fails because no response came or none that could be read, because a response to a call that
succeeded does not decode, because the service refused the call, or because the settings were refused
before any request. A refusal carries a message if its body is an object with a text as `message`; any
other body is kept whole, a body that is no JSON as the string it is.
-/

namespace WorkspaceControl.Rpc

inductive Failure where
  /-- There was no response, or its body could not be read, and the transport said why. -/
  | requestFailed (reason : String)
  | decode (error : DecodeError)
  | api (status : Nat) (message : String)
  | malformedResponse (payload : Json)
  | invalidSettings (fault : SettingsFault)

namespace Failure

def message : Failure → String
  | requestFailed reason => "HTTP request failed: " ++ reason
  | decode error => "Failed to decode response: " ++ error.message
  | api status message => s!"API error (status {status}): " ++ message
  | malformedResponse payload => "malformed error from server: " ++ payload.render
  | invalidSettings fault => "Invalid configuration: " ++ fault.message

/-- The status that the service refused a call with. -/
def status? : Failure → Option Nat
  | api status _ => some status
  | _ => none

/-- Whether the call itself was at fault. -/
def isClientError (f : Failure) : Bool :=
  match f.status? with
  | some status => 400 ≤ status ∧ status < 500
  | none => false

/-- Whether the service was at fault. -/
def isServerError (f : Failure) : Bool :=
  match f.status? with
  | some status => 500 ≤ status
  | none => false

end Failure

/-- Whether a status says that a call succeeded. -/
def succeeded (status : Nat) : Bool := 200 ≤ status ∧ status < 300

/-- What the body of a refusal says: its value, or the body itself as a string. -/
def payload (body : String) : Json :=
  match Json.parse body with
  | .ok value => value
  | .error _ => .string body

/-- The failure of a response, `none` if its status says that the call succeeded. -/
def refusal? (status : Nat) (body : String) : Option Failure :=
  if succeeded status then none
  else
    match (payload body).member? "message" >>= Json.text? with
    | some message => some (.api status message)
    | none => some (.malformedResponse (payload body))

end WorkspaceControl.Rpc
