import WorkspaceControl.Decimal.Double
import WorkspaceControl.Dictionary

/-!
# JSON values

A `Json` is what a text says, members in the order of the text and repeated keys kept. Its
`canonical` form is the value that a text stands for: in every object the members are in key order
and of several members with one key the last counts.

A number is an integer if it is written as one and fits a signed or unsigned word of 64 bits;
every other number is a double. Minus zero is a double too, since no integer has its sign.
-/

namespace WorkspaceControl

inductive Number where
  | integer (value : Int) (bounded : -0x8000000000000000 ≤ value ∧ value < 0x10000000000000000)
  | double (value : Decimal.Double)
  deriving DecidableEq, Repr

namespace Number

/-- A natural number below 2⁶⁴. -/
def ofNat (n : Nat) (h : n < 0x10000000000000000) : Number := .integer n ⟨by omega, by omega⟩

/-- The number of a row of digits with an optional minus sign, given what the digits stand for. -/
def ofDigits (negative : Bool) (magnitude : Nat) : Number :=
  let value : Int := if negative then -magnitude else magnitude
  if h : (-0x8000000000000000 ≤ value ∧ value < 0x10000000000000000) ∧
      (negative → magnitude ≠ 0) then .integer value h.1
  else .double ((Decimal.Double.ofNat? magnitude).getD (Decimal.Double.zero false)
    |>.withSign negative)

end Number

/-- A JSON value as written. -/
inductive Json where
  | null
  | boolean (value : Bool)
  | number (value : Number)
  | string (value : String)
  | array (items : List Json)
  | object (members : List (String × Json))

namespace Json

mutual

/-- The value that a text stands for: members in key order, the last of each key. -/
def canonical : Json → Json
  | .array items => .array (canonicalItems items)
  | .object members => .object (ordered (canonicalMembers members))
  | .null => .null
  | .boolean b => .boolean b
  | .number n => .number n
  | .string s => .string s
termination_by structural value => value

def canonicalItems : List Json → List Json
  | [] => []
  | item :: rest => canonical item :: canonicalItems rest
termination_by structural items => items

/-- The canonical form of every member's value, the members left where they are. -/
def canonicalMembers : List (String × Json) → List (String × Json)
  | [] => []
  | (key, value) :: rest => (key, canonical value) :: canonicalMembers rest
termination_by structural members => members

end

/-- The value of the last member with a key, if the value is an object. -/
def member? (key : String) : Json → Option Json
  | .object members => members.reverse.lookup key
  | _ => none

def text? : Json → Option String
  | .string s => some s
  | _ => none

end Json

end WorkspaceControl
