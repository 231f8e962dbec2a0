import WorkspaceControl.Json.Quoted

/-!
# Lists and objects in text

The marks of JSON between values: blanks, commas, colons and closing brackets. `nextItem` and
`nextKey` go to the next element or past the end; `readItems` and `readMembers` read all elements
with a reader for one. The readers of untyped values and of records are made of these.

Every element takes at least one character, so fuel one greater than the number of characters
suffices for a loop over them.
-/

namespace WorkspaceControl

/-- A reader of values at the front of a text, which hands back what it leaves. -/
abbrev Reader (α : Type) := List Char → Except Fault (α × List Char)

namespace Brackets

/-- The characters that may stand between any two marks. -/
def isBlank (c : Char) : Bool := c = ' ' ∨ c = '\n' ∨ c = '\t' ∨ c = '\r'

def skipBlanks (text : List Char) : List Char := text.dropWhile isBlank

/-- Reads given characters, the rest of a word that its first letter has announced. -/
def readWord : (due : List Char) → List Char → Except Fault (List Char)
  | [], text => .ok text
  | _ :: _, [] => .error (.atEnd .endInValue)
  | d :: due, c :: rest =>
    if c = d then readWord due rest else .error (.next .expectedWord (c :: rest))

/-- Where a list goes on: at a further item, or after its closing bracket. -/
inductive NextItem where
  | item (text : List Char)
  | closed (rest : List Char)

/-- Goes to the next item of a list, over a comma unless it is the first. -/
def nextItem (first : Bool) (text : List Char) : Except Fault NextItem :=
  match skipBlanks text with
  | [] => .error (.atEnd .endInList)
  | ']' :: rest => .ok (.closed rest)
  | c :: rest =>
    if first then .ok (.item (c :: rest))
    else if c = ',' then
      match skipBlanks rest with
      | [] => .error (.atEnd .endInValue)
      | ']' :: rest => .error (.next .trailingComma (']' :: rest))
      | text => .ok (.item text)
    else .error (.next .expectedCommaInList (c :: rest))

/-- Goes past the closing bracket of a list that should have no further item. -/
def closeList (text : List Char) : Except Fault (List Char) :=
  match skipBlanks text with
  | [] => .error (.atEnd .endInList)
  | ']' :: rest => .ok rest
  | ',' :: rest =>
    match skipBlanks rest with
    | ']' :: rest => .error (.next .trailingComma (']' :: rest))
    | text => .error (.next .trailingCharacters text)
  | text => .error (.next .trailingCharacters text)

/-- Goes to the next key of an object and reads it, or past the closing brace. -/
def nextKey (first : Bool) (text : List Char) : Except Fault (Option String × List Char) :=
  let key (text : List Char) : Except Fault (Option String × List Char) :=
    match text with
    | '"' :: rest => do
      let (key, rest) ← Quoted.read rest
      return (some key, rest)
    | _ => .error (.next .keyNotString text)
  match skipBlanks text with
  | [] => .error (.atEnd .endInObject)
  | '\x7d' :: rest => .ok (none, rest)
  | c :: rest =>
    if first then key (c :: rest)
    else if c = ',' then
      match skipBlanks rest with
      | [] => .error (.atEnd .endInValue)
      | '\x7d' :: rest => .error (.next .trailingComma ('\x7d' :: rest))
      | text => key text
    else .error (.next .expectedCommaInObject (c :: rest))

/-- Goes past the colon between a key and its value. -/
def colon (text : List Char) : Except Fault (List Char) :=
  match skipBlanks text with
  | [] => .error (.atEnd .endInObject)
  | ':' :: rest => .ok rest
  | text => .error (.next .expectedColon text)

/-- Reads the items of a list up to its closing bracket. -/
def readItems {α : Type} (item : Reader α) :
    (fuel : Nat) → (first : Bool) → List Char → Except Fault (List α × List Char)
  | 0, _, _ => .error (.atEnd .endInList)
  | fuel + 1, first, text => do
    match ← nextItem first text with
    | .closed rest => return ([], rest)
    | .item text =>
      let (x, rest) ← item text
      let (xs, rest) ← readItems item fuel false rest
      return (x :: xs, rest)

/-- Reads a list after its opening bracket. -/
def readList {α : Type} (item : Reader α) (text : List Char) : Except Fault (List α × List Char) :=
  readItems item (text.length + 1) true text

/-- Reads the members of an object up to its closing brace. Each key is handed to `member` with what
has been gathered and the text after the key, colon included. -/
def readMembers {σ : Type} (member : σ → String → Reader σ) :
    (fuel : Nat) → (first : Bool) → σ → List Char → Except Fault (σ × List Char)
  | 0, _, _, _ => .error (.atEnd .endInObject)
  | fuel + 1, first, gathered, text => do
    match ← nextKey first text with
    | (none, rest) => return (gathered, rest)
    | (some key, rest) =>
      let (gathered, rest) ← member gathered key rest
      readMembers member fuel false gathered rest

/-- Reads an object after its opening brace. -/
def readObject {σ : Type} (member : σ → String → Reader σ) (none : σ) (text : List Char) :
    Except Fault (σ × List Char) :=
  readMembers member (text.length + 1) true none text

end Brackets

end WorkspaceControl
