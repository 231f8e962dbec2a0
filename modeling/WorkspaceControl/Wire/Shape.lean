import WorkspaceControl.Json.Printer

/-!
# Shapes of records on the wire

A `Shape` says how a value travels as JSON. Every record of the service has one, and the values of
a shape, `Shape.Data`, are defined by recursion on it, so writing and both ways of reading are
defined once for all records.

No shape is ever written as `null`; that is left to optional fields, which are written as `null` or
not at all when unset. Hence an optional field loses nothing, and a field that is absent reads as
unset.
-/

namespace WorkspaceControl.Wire

/-- Whether a field may be left out. -/
inductive Presence where
  /-- A value that must be there. -/
  | required
  /-- A value that may be unset. It may always be absent from an object; a `lenient` one may also be
  absent from the end of an array form. A `quiet` one is not written when unset. -/
  | optional (lenient quiet : Bool)
  /-- A list that is empty when absent. -/
  | defaulted
  deriving DecidableEq, Repr

namespace Presence

/-- What a field holds, given the values it is about. -/
def Data : Presence → Type → Type
  | required, α => α
  | optional _ _, α => Option α
  | defaulted, α => List α

/-- A field as JSON, `none` if it is not written. -/
def encode {α : Type} (value : α → Json) : (p : Presence) → p.Data α → Option Json
  | required, a => some (value a)
  | optional _ quiet, a =>
    match a with
    | some a => some (value a)
    | none => if quiet then none else some .null
  | defaulted, as => some (.array (as.map value))

/-- What a field holds that is absent from an object. -/
def absent? {α : Type} : (p : Presence) → Option (p.Data α)
  | required => none
  | optional _ _ => some none
  | defaulted => some []

/-- What a field holds that is absent from the end of an array form. -/
def omitted? {α : Type} : (p : Presence) → Option (p.Data α)
  | required => none
  | optional lenient _ => if lenient then some none else none
  | defaulted => some []

end Presence

mutual

/-- How a value travels. -/
inductive Shape where
  | string
  | boolean
  /-- A natural number below 2³². -/
  | word
  /-- One of several names. -/
  | choice (variants : List String)
  | list (item : Shape)
  /-- Texts under keys in no particular order. -/
  | dictionary
  /-- Named fields in a fixed order; `title` is what messages call the record. -/
  | record (title : String) (fields : Fields)

/-- The fields of a record. -/
inductive Fields where
  | nil
  | cons (name : String) (presence : Presence) (shape : Shape) (rest : Fields)

end

mutual

def Shape.Data : Shape → Type
  | .string => String
  | .boolean => Bool
  | .word => UInt32
  | .choice variants => Fin variants.length
  | .list item => List item.Data
  | .dictionary => Dictionary String
  | .record _ fields => fields.Data
termination_by structural shape => shape

def Fields.Data : Fields → Type
  | .nil => Unit
  | .cons _ presence shape rest => presence.Data shape.Data × rest.Data
termination_by structural fields => fields

end

def Fields.count : Fields → Nat
  | .nil => 0
  | .cons _ _ _ rest => rest.count + 1

/-- A number below 2³² as JSON. -/
def ofWord (n : UInt32) : Json :=
  .number (.ofNat n.toNat (Nat.lt_trans n.toNat_lt (by decide)))

/-- The texts of a dictionary as JSON. -/
def ofDictionary (d : Dictionary String) : Json :=
  .object (d.entries.map fun (key, text) => (key, .string text))

mutual

/-- A value as JSON, the fields of records in their order. -/
def Shape.encode : (shape : Shape) → shape.Data → Json
  | .string, s => .string s
  | .boolean, b => .boolean b
  | .word, n => ofWord n
  | .choice variants, i => .string (variants.get i)
  | .list item, items => .array (items.map item.encode)
  | .dictionary, d => ofDictionary d
  | .record _ fields, data => .object (fields.encode data)
termination_by structural shape => shape

/-- The members of a record. -/
def Fields.encode : (fields : Fields) → fields.Data → List (String × Json)
  | .nil, _ => []
  | .cons name presence shape rest, (value, more) =>
    match presence.encode shape.encode value with
    | some json => (name, json) :: rest.encode more
    | none => rest.encode more
termination_by structural fields => fields

end

/-- Fields that have been met so far while a record is read. -/
def Fields.Slots : Fields → Type
  | .nil => Unit
  | .cons _ presence shape rest => Option (presence.Data shape.Data) × rest.Slots

/-- No field has been met. -/
def Fields.unfilled : (fields : Fields) → fields.Slots
  | .nil => ()
  | .cons _ _ _ rest => (none, rest.unfilled)

/-- The record of the fields met. The first field that must be there and is missing is reported. -/
def Fields.finish : (fields : Fields) → fields.Slots → Except Mismatch fields.Data
  | .nil, _ => .ok ()
  | .cons name presence _ rest, (slot, more) =>
    match slot.or presence.absent? with
    | some value => do return (value, ← rest.finish more)
    | none => .error (.missingField name)

/-- The record of fields that an array form has left out, counted from `index`. -/
def Fields.ofNothing (due : Expected) : (fields : Fields) → (index : Nat) →
    Except Mismatch fields.Data
  | .nil, _ => .ok ()
  | .cons _ presence _ rest, index =>
    match presence.omitted? with
    | some value => do return (value, ← rest.ofNothing due (index + 1))
    | none => .error (.wrongLength index due)

end WorkspaceControl.Wire
