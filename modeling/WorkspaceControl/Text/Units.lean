import WorkspaceControl.Text.Utf8

/-!
# 16-bit units

A character below U+10000 is one unit of 16 bits; any other is a pair of units, a leading half and a
trailing half, which stand for no character when they are alone. Bytes are read as units, two bytes
a unit, without ever failing: what is no character becomes one replacement character.
-/

namespace WorkspaceControl.Units

/-- Whether a unit is the first half of a pair. -/
def leading (unit : Nat) : Bool := 0xD800 ≤ unit ∧ unit ≤ 0xDBFF

/-- Whether a unit is the second half of a pair. -/
def trailing (unit : Nat) : Bool := 0xDC00 ≤ unit ∧ unit ≤ 0xDFFF

/-- The character of a pair of units. -/
def ofPair (first second : Nat) : Char :=
  Char.ofNat (0x10000 + (first - 0xD800) * 0x400 + (second - 0xDC00))

/-- Which byte of a unit comes first. -/
inductive ByteOrder where
  /-- The one of greater weight. -/
  | big
  /-- The one of lesser weight. -/
  | little
  deriving DecidableEq, Repr

/-- The unit of two bytes. -/
def ByteOrder.unit (order : ByteOrder) (a b : UInt8) : Nat :=
  match order with
  | big => 256 * a.toNat + b.toNat
  | little => 256 * b.toNat + a.toNat

/-- Reads bytes to characters, with a first half that waits for its second, if any. A half without
the other is replaced, and the unit that follows it is read as a start of its own. -/
def chars (order : ByteOrder) : Option Nat → List UInt8 → List Char
  | none, [] => []
  | some _, [] => [Utf8.replacement]
  -- A last byte alone is replaced together with the half that waits.
  | _, [_] => [Utf8.replacement]
  | waiting, a :: b :: rest =>
    let unit := order.unit a b
    let fresh : List Char :=
      if leading unit then chars order (some unit) rest
      else if trailing unit then Utf8.replacement :: chars order none rest
      else Char.ofNat unit :: chars order none rest
    match waiting with
    | none => fresh
    | some first =>
      if trailing unit then ofPair first unit :: chars order none rest
      else Utf8.replacement :: fresh

def text (order : ByteOrder) (bytes : List UInt8) : String := String.ofList (chars order none bytes)

end WorkspaceControl.Units
