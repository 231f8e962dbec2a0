import WorkspaceControl.Wire.FromText

/-!
# Types of values on the wire

A `Codec` writes a type as JSON and reads it back, either straight from text or from the value of a
text. A `Record` is a type with a shape, which is all that its codec needs.
-/

namespace WorkspaceControl.Wire

/-- A type whose values travel as JSON. -/
class Codec (α : Type) where
  /-- The value as JSON, the fields of records in their order. -/
  encode : α → Json
  /-- Reads a value, straight from text. -/
  read : String → Except DecodeError α
  /-- Decodes the value that a text stands for. -/
  ofJson : Json → Except DecodeError α

/-- A type whose values are those of a shape. -/
class Record (α : Type) where
  shape : Shape
  pack : α → shape.Data
  unpack : shape.Data → α
  unpack_pack : ∀ a, unpack (pack a) = a

instance recordCodec {α : Type} [Record α] : Codec α where
  encode a := (Record.shape α).encode (Record.pack a)
  read text := do
    let data ← placed text.toList (Json.readWhole (Record.shape α).read text.toList)
    return Record.unpack data
  ofJson value := do
    let data ← unplaced ((Record.shape α).ofJson .whole value)
    return Record.unpack data

/-- Reads a value by way of the value that the text stands for. -/
def Codec.parse {α : Type} [Codec α] (text : String) : Except DecodeError α :=
  Json.parse text >>= Codec.ofJson

def Codec.render {α : Type} [Codec α] (a : α) : String := (Codec.encode a).render

instance listRecord {α : Type} [Record α] : Record (List α) where
  shape := .list (Record.shape α)
  pack as := as.map Record.pack
  unpack data := data.map Record.unpack
  unpack_pack as := by simp [Function.comp_def, Record.unpack_pack]

end WorkspaceControl.Wire
