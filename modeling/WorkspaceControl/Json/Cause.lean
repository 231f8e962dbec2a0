import WorkspaceControl.Json.Numeral
import WorkspaceControl.Text.Literal

/-!
# Why a text or a value is refused

Two kinds of causes: a text that is no JSON (`Malformed`), and a value that is not of the form
that was asked for (`Mismatch`), which says what was `Found` and what was `Expected`. All wording
is in this module.
-/

namespace WorkspaceControl

/-- Why a text is no JSON. -/
inductive Malformed where
  | endInValue
  | endInList
  | endInObject
  | endInString
  | expectedValue
  | expectedWord
  | expectedColon
  | expectedCommaInList
  | expectedCommaInObject
  | keyNotString
  | trailingComma
  | trailingCharacters
  | invalidNumber
  | numberOutOfRange
  | invalidEscape
  | loneSurrogate
  | unfinishedSurrogate
  | controlCharacter
  | tooDeep
  deriving DecidableEq, Repr

namespace Malformed

def message : Malformed → String
  | endInValue => "EOF while parsing a value"
  | endInList => "EOF while parsing a list"
  | endInObject => "EOF while parsing an object"
  | endInString => "EOF while parsing a string"
  | expectedValue => "expected value"
  | expectedWord => "expected ident"
  | expectedColon => "expected `:`"
  | expectedCommaInList => "expected `,` or `]`"
  | expectedCommaInObject => "expected `,` or `\x7d`"
  | keyNotString => "key must be a string"
  | trailingComma => "trailing comma"
  | trailingCharacters => "trailing characters"
  | invalidNumber => "invalid number"
  | numberOutOfRange => "number out of range"
  | invalidEscape => "invalid escape"
  | loneSurrogate => "lone leading surrogate in hex escape"
  | unfinishedSurrogate => "unexpected end of hex escape"
  | controlCharacter => "control character (\\u0000-\\u001F) found while parsing a string"
  | tooDeep => "recursion limit exceeded"

end Malformed

/-- What stands where something else is due. -/
inductive Found where
  | null
  | boolean (value : Bool)
  | number (value : Number)
  | string (value : String)
  | sequence
  | map
  deriving DecidableEq

/-- What a value is, as seen from outside. -/
def Json.found : Json → Found
  | .null => .null
  | .boolean b => .boolean b
  | .number n => .number n
  | .string s => .string s
  | .array _ => .sequence
  | .object _ => .map

/-- What is due. -/
inductive Expected where
  | string
  | boolean
  | sequence
  | map
  | word
  | unit
  | variant
  | choice
  | singleKey
  | fewerItems
  | items (count : Nat)
  | record (title : String)
  | recordItems (title : String) (count : Nat)
  deriving DecidableEq

def elements (count : Nat) : String :=
  if count = 1 then "1 element" else s!"{count} elements"

/-- Texts with something between them. -/
def joined (separator : String) (texts : List String) : String := separator.intercalate texts

namespace Found

/-- The wording of what was found. -/
def words : Found → String
  | null => "null"
  | boolean b => if b then "boolean `true`" else "boolean `false`"
  | number (.integer n _) => String.ofList ("integer `".toList ++ Decimal.writeInt n ++ ['\x60'])
  | number (.double d) =>
    String.ofList ("floating point `".toList ++ (Number.double d).write ++ ['\x60'])
  | string s => "string " ++ Literal.quote s
  | sequence => "sequence"
  | map => "map"

end Found

namespace Expected

/-- The wording of what is due. -/
def words : Expected → String
  | string => "a string"
  | boolean => "a boolean"
  | sequence => "a sequence"
  | map => "a map"
  | word => "u32"
  | unit => "unit"
  | variant => "variant identifier"
  | choice => "string or map"
  | singleKey => "map with a single key"
  | fewerItems => "fewer elements in array"
  | items count => elements count ++ " in sequence"
  | record title => title
  | recordItems title count => title ++ " with " ++ elements count

end Expected

/-- Why a value is not of the form that was asked for. -/
inductive Mismatch where
  | wrongType (found : Found) (expected : Expected)
  | wrongValue (found : Found) (expected : Expected)
  | wrongLength (length : Nat) (expected : Expected)
  | missingField (name : String)
  | duplicateField (name : String)
  | unknownVariant (name : String) (known : List String)
  deriving DecidableEq

namespace Mismatch

/-- The names that would have been accepted. -/
def alternatives (known : List String) : String :=
  let quoted := known.map fun name => "`" ++ name ++ "`"
  match quoted with
  | [] => "there are no variants"
  | [a] => "expected " ++ a
  | [a, b] => "expected " ++ a ++ " or " ++ b
  | _ => "expected one of " ++ joined ", " quoted

def message : Mismatch → String
  | wrongType found expected => "invalid type: " ++ found.words ++ ", expected " ++ expected.words
  | wrongValue found expected => "invalid value: " ++ found.words ++ ", expected " ++ expected.words
  | wrongLength length expected => s!"invalid length {length}, expected " ++ expected.words
  | missingField name => "missing field `" ++ name ++ "`"
  | duplicateField name => "duplicate field `" ++ name ++ "`"
  | unknownVariant name known => "unknown variant `" ++ name ++ "`, " ++ alternatives known

end Mismatch

/-- Why a text or a value is refused. -/
inductive Cause where
  | malformed (cause : Malformed)
  | mismatch (cause : Mismatch)
  deriving DecidableEq

def Cause.message : Cause → String
  | malformed cause => cause.message
  | mismatch cause => cause.message

end WorkspaceControl
