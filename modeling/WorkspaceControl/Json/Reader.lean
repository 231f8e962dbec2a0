import WorkspaceControl.Json.Brackets
import WorkspaceControl.Json.Numeral.Reader

/-!
# JSON values read from text

`readHead` reads a scalar or an opening bracket; `readValue` reads a whole value with brackets
nested no deeper than a number of levels. `ofText` reads a text that holds one value and nothing
else but blanks, and `parse` takes the value that such a text stands for.
-/

namespace WorkspaceControl.Json

open Brackets

/-- The front of a value: a whole scalar, or an opening bracket. -/
inductive Head where
  | scalar (value : Json)
  | list
  | object

/-- Reads the front of a value. -/
def readHead (text : List Char) : Except Fault (Head × List Char) :=
  match skipBlanks text with
  | [] => .error (.atEnd .endInValue)
  | 'n' :: rest => do return (.scalar .null, ← readWord ['u', 'l', 'l'] rest)
  | 't' :: rest => do return (.scalar (.boolean true), ← readWord ['r', 'u', 'e'] rest)
  | 'f' :: rest => do return (.scalar (.boolean false), ← readWord ['a', 'l', 's', 'e'] rest)
  | '"' :: rest => do
    let (s, rest) ← Quoted.read rest
    return (.scalar (.string s), rest)
  | '-' :: rest => do
    let (n, rest) ← Number.read true rest
    return (.scalar (.number n), rest)
  | '[' :: rest => .ok (.list, rest)
  | '\x7b' :: rest => .ok (.object, rest)
  | c :: rest =>
    if c.isDigit then do
      let (n, rest) ← Number.read false (c :: rest)
      return (.scalar (.number n), rest)
    else .error (.next .expectedValue (c :: rest))

/-- The number of brackets that may be open at once. -/
def deepest : Nat := 127

/-- Reads one value in which at most so many brackets are open at once. -/
def readValue : (levels : Nat) → List Char → Except Fault (Json × List Char)
  | 0, text => do
    match ← readHead text with
    | (.scalar value, rest) => return (value, rest)
    | (_, rest) => .error ⟨.malformed .tooDeep, rest, 0⟩
  | levels + 1, text => do
    match ← readHead text with
    | (.scalar value, rest) => return (value, rest)
    | (.list, rest) =>
      let (items, rest) ← readList (readValue levels) rest
      return (.array items, rest)
    | (.object, rest) =>
      let member (gathered : List (String × Json)) (key : String) : Reader (List (String × Json)) :=
        fun text => do
          let (value, rest) ← colon text >>= readValue levels
          return ((key, value) :: gathered, rest)
      let (members, rest) ← readObject member [] rest
      return (.object members.reverse, rest)

/-- Nothing but blanks may follow the value of a text. -/
def ended (text : List Char) : Except Fault Unit :=
  match skipBlanks text with
  | [] => .ok ()
  | text => .error (.next .trailingCharacters text)

/-- Reads a whole text with a reader of one value. -/
def readWhole {α : Type} (value : Reader α) (text : List Char) : Except Fault α := do
  let (a, rest) ← value text
  ended rest
  return a

/-- The value of a text as written. -/
def ofText (text : String) : Except DecodeError Json :=
  placed text.toList (readWhole (readValue deepest) text.toList)

/-- The value that a text stands for. -/
def parse (text : String) : Except DecodeError Json := canonical <$> ofText text

end WorkspaceControl.Json
