import WorkspaceControl.Decimal.Digits
import WorkspaceControl.Rpc.Network
import WorkspaceControl.Text.Parts

/-!
# Scripts of answers in text

A script of answers has a line for each: a status, a blank and the body; a dash and a status, for a
response whose body cannot be read; or a single dash for no response at all. A line of any other form
is no answer.
-/

namespace WorkspaceControl.Rpc

/-- The answer of a line of a script. -/
def Answer.ofLine? (line : String) : Option Answer :=
  match line.toList with
  | ['-'] => some (.silence "no response")
  | '-' :: status => return .unread (← Decimal.read? status) "the body was cut off"
  | text => do
    let (status, body) := Parts.divide ' ' text
    return .response (← Decimal.read? status) (Utf8.bytes (String.ofList (body.getD [])))

end WorkspaceControl.Rpc
