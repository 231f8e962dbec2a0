import WorkspaceControl.Text.Hex
import WorkspaceControl.Text.Printable

/-!
# Text between quotes in a message

A message that quotes arbitrary text must stay on one line and show what would be invisible. Tab,
line feed, carriage return, NUL, the quote and the backslash have short escapes; every other
character that would not show by itself is written by its number, `\u` and hexadecimal digits in
braces.
-/

namespace WorkspaceControl.Literal

/-- One character between quotes. -/
def escape (c : Char) : List Char :=
  match c with
  | '\x00' => ['\\', '0']
  | '\t' => ['\\', 't']
  | '\n' => ['\\', 'n']
  | '\r' => ['\\', 'r']
  | '"' => ['\\', '"']
  | '\\' => ['\\', '\\']
  | c =>
    if Printable.shows c then [c]
    else ['\\', 'u', '\x7b'] ++ Hex.digits 'a' c.toNat ++ ['\x7d']

def quote (text : String) : String :=
  String.ofList ('"' :: (text.toList.flatMap escape ++ ['"']))

end WorkspaceControl.Literal
