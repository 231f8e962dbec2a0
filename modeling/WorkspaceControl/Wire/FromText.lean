import WorkspaceControl.Json.Reader
import WorkspaceControl.Json.Skip
import WorkspaceControl.Wire.FromTree

/-!
# Records straight from text

A record is read from text without a JSON value in between: each member is decoded as soon as its
key is met, and what no field asks for is skipped. So a fault is reported where it stands, and a
repeated key is a fault. The forms accepted are those of `Wire/FromTree`.
-/

namespace WorkspaceControl.Wire

open Brackets

/-- Nothing of the expected kind stands here: the front of the value says what does. A scalar is
read whole first; a bracket is left unread. -/
def refuse {α : Type} (due : Expected) (text : List Char) : Except Fault α := do
  match ← Json.readHead text with
  | (.scalar value, rest) => .error (.mismatch (.wrongType value.found due) rest)
  | (.list, _) => .error (.mismatch (.wrongType .sequence due) (skipBlanks text))
  | (.object, _) => .error (.mismatch (.wrongType .map due) (skipBlanks text))

/-- What was made of the text read so far, or the fault of it. -/
def settle {α : Type} (made : Except Mismatch α) (rest : List Char) :
    Except Fault (α × List Char) :=
  match made with
  | .ok a => .ok (a, rest)
  | .error cause => .error (.mismatch cause rest)

/-- Reads a scalar with a check of its value. -/
def readScalar {α : Type} (due : Expected) (check : Json → Except Mismatch α) : Reader α :=
  fun text => do
    match ← Json.readHead text with
    | (.scalar value, rest) => settle (check value) rest
    | (_, _) => refuse due text

def readText : Reader String := readScalar .string toText

/-- Reads a name of a choice. -/
def readVariant (variants : List String) : Reader (Fin variants.length) :=
  readScalar .variant fun
    | .string name => toVariant variants name
    | v => .error (.wrongType v.found .variant)

/-- Reads one of several names, either by itself or as the only key of an object that holds
`null`. -/
def readChoice (variants : List String) : Reader (Fin variants.length) := fun text =>
  match skipBlanks text with
  | [] => .error (.atEnd .endInValue)
  | '"' :: rest => readVariant variants ('"' :: rest)
  | '\x7b' :: rest =>
    match skipBlanks rest with
    | [] => .error (.atEnd .endInObject)
    | '"' :: rest => do
      let (i, rest) ← readVariant variants ('"' :: rest)
      let rest ← colon rest
      let ((), rest) ← readScalar .unit toUnit rest
      match skipBlanks rest with
      | [] => .error (.atEnd .endInObject)
      | '\x7d' :: rest => return (i, rest)
      -- What follows the only member is looked at and not taken.
      | rest => .error ⟨.malformed .expectedValue, rest, 0⟩
    | rest => .error (.next .keyNotString rest)
  | text => .error (.next .expectedValue text)

/-- Reads texts under keys; of a repeated key the last value counts. -/
def readDictionary : Reader (Dictionary String) := fun text =>
  match skipBlanks text with
  | '\x7b' :: rest =>
    readObject (fun d key text => do
      let (value, rest) ← colon text >>= readText
      return (d.insert key value, rest)) Dictionary.empty rest
  | text => refuse .map text

/-- Reads a list of values. -/
def readListOf {α : Type} (item : Reader α) : Reader (List α) := fun text =>
  match skipBlanks text with
  | '[' :: rest => readList item rest
  | text => refuse .sequence text

/-- Reads a value that may be `null`. -/
def readOptional {α : Type} (value : Reader α) : Reader (Option α) := fun text =>
  match skipBlanks text with
  | 'n' :: rest => do return (none, ← readWord ['u', 'l', 'l'] rest)
  | text => do
    let (a, rest) ← value text
    return (some a, rest)

/-- Reads what a field holds. -/
def Presence.read {α : Type} (value : Reader α) : (p : Presence) → Reader (p.Data α)
  | .required => value
  | .optional _ _ => readOptional value
  | .defaulted => readListOf value

/-- What is noticed after a key that was met before: its object is left right there, past its
closing brace if that comes next. -/
def repeated (name : String) (text : List Char) : Fault :=
  .mismatch (.duplicateField name) <|
    match skipBlanks text with
    | '\x7d' :: rest => rest
    | rest => rest

/-- Reads the value of a key into a slot that has to be empty. -/
def readSlot {α : Type} (name : String) (value : Reader α) (slot : Option α) :
    Reader (Option α) := fun text =>
  match slot with
  | some _ => .error (repeated name text)
  | none => do
    let (a, rest) ← colon text >>= value
    return (some a, rest)

mutual

def Shape.read : (shape : Shape) → Reader shape.Data
  | .string => readText
  | .boolean => readScalar .boolean toBoolean
  | .word => readScalar .word toWord
  | .choice variants => readChoice variants
  | .list item => readListOf item.read
  | .dictionary => readDictionary
  | .record title fields => fun text =>
    match skipBlanks text with
    | '[' :: rest => fields.readItems (.recordItems title fields.count) 0 true rest
    | '\x7b' :: rest => do
      let (slots, rest) ← readObject fields.readMember fields.unfilled rest
      settle (fields.finish slots) rest
    | text => refuse (.record title) text
termination_by structural shape => shape

/-- Reads the items of an array form up to the closing bracket. -/
def Fields.readItems (due : Expected) : (fields : Fields) → (index : Nat) → (first : Bool) →
    Reader fields.Data
  | .nil, _, _ => fun text => do return ((), ← closeList text)
  | .cons name presence shape rest, index, first => fun text => do
    match ← nextItem first text with
    | .closed left => settle ((Fields.cons name presence shape rest).ofNothing due index) left
    | .item text =>
      let (value, left) ← presence.read shape.read text
      let (more, left) ← rest.readItems due (index + 1) false left
      return ((value, more), left)
termination_by structural fields => fields

/-- Reads a member into the field of its name, or skips it if there is none. -/
def Fields.readMember : (fields : Fields) → fields.Slots → String → Reader fields.Slots
  | .nil, _, _ => fun text => do return ((), ← colon text >>= Json.skip)
  | .cons name presence shape rest, (slot, more), key => fun text =>
    if key = name then do
      let (slot, left) ← readSlot name (presence.read shape.read) slot text
      return ((slot, more), left)
    else do
      let (more, left) ← rest.readMember more key text
      return ((slot, more), left)
termination_by structural fields => fields

end

end WorkspaceControl.Wire
