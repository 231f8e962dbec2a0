import WorkspaceControl.Json.Brackets
import WorkspaceControl.Json.Numeral.Reader

/-!
# Values that nobody asked for

A member of a record that has no field is skipped: brackets are matched to any depth, and words,
numbers and strings are looked at for their form only.
-/

namespace WorkspaceControl.Json

open Brackets

/-- What kind of bracket is open. -/
inductive Bracket where
  | list
  | object
  deriving DecidableEq, Repr

namespace Bracket

/-- The character that closes a bracket. -/
def closing : Bracket → Char
  | list => ']'
  | object => '\x7d'

/-- The text ends inside the bracket. -/
def unclosed : Bracket → Malformed
  | list => .endInList
  | object => .endInObject

/-- Something other than a comma or the end follows an element. -/
def expectedComma : Bracket → Malformed
  | list => .expectedCommaInList
  | object => .expectedCommaInObject

end Bracket

/-- Skips a key and its colon. -/
def skipKey (text : List Char) : Except Fault (List Char) :=
  match skipBlanks text with
  | [] => .error (.atEnd .endInObject)
  | '"' :: rest => Quoted.skip rest >>= colon
  | text => .error (.next .keyNotString text)

/-- What the front of a value is: a whole scalar, or an opening bracket. -/
def skipFront (text : List Char) : Except Fault (Option Bracket × List Char) :=
  match skipBlanks text with
  | [] => .error (.atEnd .endInValue)
  | 'n' :: rest => (none, ·) <$> readWord ['u', 'l', 'l'] rest
  | 't' :: rest => (none, ·) <$> readWord ['r', 'u', 'e'] rest
  | 'f' :: rest => (none, ·) <$> readWord ['a', 'l', 's', 'e'] rest
  | '"' :: rest => (none, ·) <$> Quoted.skip rest
  | '-' :: rest => (none, ·) <$> Number.skip rest
  | '[' :: rest => .ok (some .list, rest)
  | '\x7b' :: rest => .ok (some .object, rest)
  | c :: rest =>
    if c.isDigit then (none, ·) <$> Number.skip (c :: rest)
    else .error (.next .expectedValue (c :: rest))

/-- Closes as many of the open brackets as the text closes. What is handed back is the brackets
still open and the text of the next element, or no brackets and all that follows. Right after an
opening bracket no comma is due. -/
def closeBrackets : (opened : List Bracket) → (fresh : Bool) → List Char →
    Except Fault (List Bracket × List Char)
  | [], _, text => .ok ([], text)
  | b :: outer, fresh, text =>
    match skipBlanks text with
    | [] => .error (.atEnd b.unclosed)
    | c :: rest =>
      -- What a bracket closes is an element of the bracket around it.
      if c = b.closing then closeBrackets outer false rest
      else if fresh then .ok (b :: outer, c :: rest)
      else if c = ',' then .ok (b :: outer, rest)
      else .error (.next b.expectedComma (c :: rest))

/-- Skips values until all open brackets are closed. Every round takes at least one character. -/
def skipValues : (fuel : Nat) → (opened : List Bracket) → List Char → Except Fault (List Char)
  | 0, _, _ => .error (.atEnd .endInValue)
  | fuel + 1, opened, text => do
    let (entered, rest) ← skipFront text
    let (opened, rest) ←
      match entered with
      | some b => closeBrackets (b :: opened) true rest
      | none => closeBrackets opened false rest
    match opened with
    | [] => return rest
    | .list :: _ => skipValues fuel opened rest
    | .object :: _ => skipKey rest >>= skipValues fuel opened

/-- Skips one value. -/
def skip (text : List Char) : Except Fault (List Char) :=
  skipValues (text.length + 1) [] text

end WorkspaceControl.Json
