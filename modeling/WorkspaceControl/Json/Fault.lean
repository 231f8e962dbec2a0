import WorkspaceControl.Json.Cause

/-!
# Faults and their places

A reader of text works on the characters that are still unread and hands back those it leaves. A
`Fault` names a cause and where it was noticed: what was unread then, and how many bytes of that
still count as read. Only the whole text turns this into a `Place`, so readers carry no counters.

A place is a line, counted from one, and the number of bytes of that line that were read.
-/

namespace WorkspaceControl

structure Place where
  line : Nat
  column : Nat
  deriving DecidableEq, Repr

namespace Place

/-- The place before the first byte. -/
def start : Place := ⟨1, 0⟩

/-- The place one byte further. -/
def advance (p : Place) (byte : UInt8) : Place :=
  if byte = 10 then ⟨p.line + 1, 0⟩ else ⟨p.line, p.column + 1⟩

/-- The place after some bytes. -/
def after (bytes : List UInt8) : Place := bytes.foldl advance start

end Place

/-- Why reading stopped, and where: `unread` was left then, and the first `ahead` bytes of it count
as read. -/
structure Fault where
  cause : Cause
  unread : List Char
  ahead : Nat
  deriving DecidableEq

namespace Fault

/-- The text ends where more is due. -/
def atEnd (cause : Malformed) : Fault := ⟨.malformed cause, [], 0⟩

/-- The next byte is wrong; it counts as read. At the end of the text nothing does. -/
def next (cause : Malformed) (unread : List Char) : Fault := ⟨.malformed cause, unread, 1⟩

/-- What was read is not of the form asked for. -/
def mismatch (cause : Mismatch) (unread : List Char) : Fault := ⟨.mismatch cause, unread, 0⟩

/-- The place of a fault in the whole text. -/
def place (fault : Fault) (text : List Char) : Place :=
  let bytes := text.flatMap String.utf8EncodeChar
  let unread := fault.unread.flatMap String.utf8EncodeChar
  Place.after (bytes.take (bytes.length - unread.length + fault.ahead))

end Fault

/-- Why decoding failed, with the place if the fault lies in a text that was being read. -/
structure DecodeError where
  cause : Cause
  place : Option Place
  deriving DecidableEq

namespace DecodeError

def message (e : DecodeError) : String :=
  match e.place with
  | none => e.cause.message
  | some ⟨line, column⟩ => e.cause.message ++ s!" at line {line} column {column}"

end DecodeError

/-- What a reader makes of a text, with faults placed in that text. -/
def placed {α : Type} (text : List Char) : Except Fault α → Except DecodeError α
  | .ok a => .ok a
  | .error fault => .error ⟨fault.cause, some (fault.place text)⟩

/-- What decoding a value makes, with no place for what is wrong. -/
def unplaced {α : Type} : Except Mismatch α → Except DecodeError α
  | .ok a => .ok a
  | .error cause => .error ⟨.mismatch cause, none⟩

end WorkspaceControl
