import WorkspaceControl.Text.Units

/-!
# Bodies of messages as text

A body arrives as bytes and is read as text without ever failing. A mark in front tells how the
characters are written and is dropped; without one they are written as UTF-8.
-/

namespace WorkspaceControl.Body

def text : List UInt8 → String
  | 0xEF :: 0xBB :: 0xBF :: rest => Utf8.text rest
  | 0xFE :: 0xFF :: rest => Units.text .big rest
  | 0xFF :: 0xFE :: rest => Units.text .little rest
  | body => Utf8.text body

end WorkspaceControl.Body
