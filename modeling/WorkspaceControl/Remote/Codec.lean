import WorkspaceControl.Remote.Basic
import WorkspaceControl.Wire.Codec

/-!
# Remote values on the wire

A remote value travels as an object whose `stage` says where it stands, with the message or the data
beside it. Reading sets every other member aside until the stage is known, and then decodes what was
set aside as the fields of that stage. An array of the stage and the fields is accepted too.
-/

namespace WorkspaceControl.Remote

open Wire Brackets

/-- The name of the member that says where a value stands. -/
def stageField : String := "stage"

/-- What messages call a remote value. -/
def title : String := "internally tagged enum RemoteData"

def toStage : Json → Except Mismatch Stage
  | .string name =>
    match Stage.ofName? name with
    | some stage => .ok stage
    | none => .error (.unknownVariant name (Stage.all.map Stage.name))
  | v => .error (.wrongType v.found .variant)

/-- A remote value as JSON. -/
def encodeWith {α : Type} (data : α → Json) (r : Remote α) : Json :=
  let fields :=
    match r with
    | idle | pending => []
    | error message => [("message", .string message)]
    | success a | refetching a => [("data", data a)]
  .object ((stageField, .string r.stage.name) :: fields)

/-- What has been read: the stage, and what was set aside. -/
abbrev Tagged := Stage × Json

/-- Reads the stage and sets the rest aside. What is set aside lies one bracket deep already. -/
def readTagged : Reader Tagged := fun text =>
  let aside := Json.readValue (Json.deepest - 1)
  match skipBlanks text with
  | '[' :: rest => do
    match ← nextItem true rest with
    | .closed rest => .error (.mismatch (.missingField stageField) rest)
    | .item text =>
      let (stage, rest) ← readScalar .variant toStage text
      let (items, rest) ← readItems aside (rest.length + 1) false rest
      return ((stage, .array items), rest)
  | '\x7b' :: rest => do
    let member (met : Option Stage × List (String × Json)) (key : String) :
        Reader (Option Stage × List (String × Json)) := fun text =>
      if key = stageField then do
        let (stage, rest) ← readSlot stageField (readScalar .variant toStage) met.1 text
        return ((stage, met.2), rest)
      else do
        let (value, rest) ← colon text >>= aside
        return ((met.1, met.2 ++ [(key, value)]), rest)
    let ((stage, members), rest) ← readObject member (none, []) rest
    match stage with
    | some stage => return ((stage, .object members), rest)
    | none => .error (.mismatch (.missingField stageField) rest)
  | text => refuse (.record title) text

/-- Finds the stage of a value and sets the rest aside. -/
def tagged : Json → Except Mismatch Tagged
  | .array [] => .error (.missingField stageField)
  | .array (stage :: items) => do return (← toStage stage, .array items)
  | .object members => do
    match members.lookup stageField with
    | none => .error (.missingField stageField)
    | some stage => return (← toStage stage, .object (members.filter (·.1 ≠ stageField)))
  | v => .error (.wrongType v.found (.record title))

/-- A stage without fields. Members are ignored, items are not. -/
def toBare {α : Type} (r : Remote α) : Json → Except Mismatch (Remote α)
  | .array (item :: items) => .error (overlong .setAside 0 (item :: items).length)
  | _ => .ok r

/-- Decodes the only field of a stage. -/
def toField (stage name : String) (shape : Shape) (content : Json) : Except Mismatch shape.Data := do
  let (data, ()) ← (Shape.record ("struct variant RemoteData::" ++ stage)
    (.cons name .required shape .nil)).ofJson .setAside content
  return data

/-- The remote value of a stage and what was set aside. -/
def ofTagged {α : Type} [Record α] (t : Tagged) : Except Mismatch (Remote α) :=
  match t with
  | (.idle, content) => toBare .idle content
  | (.pending, content) => toBare .pending content
  | (.error, content) => .error <$> toField "Error" "message" .string content
  | (.success, content) => do
    return .success (Record.unpack (← toField "Success" "data" (Record.shape α) content))
  | (.refetching, content) => do
    return .refetching (Record.unpack (← toField "Refetching" "data" (Record.shape α) content))

instance {α : Type} [Record α] : Codec (Remote α) where
  encode := encodeWith Codec.encode
  read text := do
    let (t, rest) ← placed text.toList (readTagged text.toList)
    let r ← unplaced (ofTagged t)
    placed text.toList (Json.ended rest)
    return r
  ofJson value := unplaced (tagged value >>= ofTagged)

end WorkspaceControl.Remote
