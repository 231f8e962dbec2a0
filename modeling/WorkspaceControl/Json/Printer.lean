import WorkspaceControl.Json.Quoted

/-!
# JSON in text

A value is written without blanks, members in the order they have. `Json.write` puts the text of a
value in front of what follows it, so that nothing is appended twice.
-/

namespace WorkspaceControl.Json

mutual

/-- A value in front of what follows. -/
def write : Json → List Char → List Char
  | .null, rest => 'n' :: 'u' :: 'l' :: 'l' :: rest
  | .boolean true, rest => 't' :: 'r' :: 'u' :: 'e' :: rest
  | .boolean false, rest => 'f' :: 'a' :: 'l' :: 's' :: 'e' :: rest
  | .number n, rest => n.write ++ rest
  | .string s, rest => Quoted.write s rest
  | .array [], rest => '[' :: ']' :: rest
  | .array (item :: items), rest => '[' :: write item (writeItems items rest)
  | .object [], rest => '\x7b' :: '\x7d' :: rest
  | .object ((key, value) :: members), rest =>
    '\x7b' :: Quoted.write key (':' :: write value (writeMembers members rest))
termination_by structural value => value

/-- The items after the first with the closing bracket. -/
def writeItems : List Json → List Char → List Char
  | [], rest => ']' :: rest
  | item :: items, rest => ',' :: write item (writeItems items rest)
termination_by structural items => items

/-- The members after the first with the closing brace. -/
def writeMembers : List (String × Json) → List Char → List Char
  | [], rest => '\x7d' :: rest
  | (key, value) :: members, rest =>
    ',' :: Quoted.write key (':' :: write value (writeMembers members rest))
termination_by structural members => members

end

def render (value : Json) : String := String.ofList (value.write [])

end WorkspaceControl.Json
