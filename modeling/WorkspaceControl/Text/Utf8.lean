/-!
# Bytes as text

Bytes are read as UTF-8 without ever failing: every maximal part that is no UTF-8 becomes one
replacement character U+FFFD. A maximal part is the longest run of bytes that begins some
well-formed sequence, or a single byte when there is none; the byte that ends such a run is read
again as the start of what follows.
-/

namespace WorkspaceControl.Utf8

/-- The character that stands for bytes that are not text. -/
def replacement : Char := '\uFFFD'

/-- An unfinished sequence: the bits read so far, how many bytes are still due, and the range
the next of them must lie in. The range is narrower than `80`–`BF` right after the lead bytes
whose sequences could otherwise be overlong, surrogates or beyond U+10FFFF. -/
structure Pending where
  bits : Nat
  due : Nat
  least : UInt8
  most : UInt8
  deriving Repr, DecidableEq

/-- What a byte at the start of a sequence means: a finished character, an unfinished sequence,
or nothing. -/
inductive Lead where
  | char (c : Char)
  | pending (p : Pending)
  | invalid
  deriving Repr, DecidableEq

/-- Reads the first byte of a sequence. -/
def lead (b : UInt8) : Lead :=
  if b < 0x80 then .char (Char.ofNat b.toNat)
  else if 0xC2 ≤ b ∧ b ≤ 0xDF then .pending ⟨b.toNat - 0xC0, 1, 0x80, 0xBF⟩
  else if 0xE0 ≤ b ∧ b ≤ 0xEF then
    .pending ⟨b.toNat - 0xE0, 2, if b = 0xE0 then 0xA0 else 0x80, if b = 0xED then 0x9F else 0xBF⟩
  else if 0xF0 ≤ b ∧ b ≤ 0xF4 then
    .pending ⟨b.toNat - 0xF0, 3, if b = 0xF0 then 0x90 else 0x80, if b = 0xF4 then 0x8F else 0xBF⟩
  else .invalid

/-- Reads bytes to characters, with the unfinished sequence so far, if any. A byte outside the
range that is due ends the sequence with a replacement and starts anew. -/
def chars : Option Pending → List UInt8 → List Char
  | none, [] => []
  | some _, [] => [replacement]
  | state, b :: rest =>
    let fresh : List Char :=
      match lead b with
      | .char c => c :: chars none rest
      | .pending p => chars (some p) rest
      | .invalid => replacement :: chars none rest
    match state with
    | none => fresh
    | some p =>
      if p.least ≤ b ∧ b ≤ p.most then
        -- Only the byte after the lead has a narrower range.
        let bits := p.bits * 64 + (b.toNat - 0x80)
        if p.due ≤ 1 then Char.ofNat bits :: chars none rest
        else chars (some ⟨bits, p.due - 1, 0x80, 0xBF⟩) rest
      else replacement :: fresh

def text (bytes : List UInt8) : String := String.ofList (chars none bytes)

/-- The UTF-8 bytes of a text. -/
def bytes (text : String) : List UInt8 :=
  text.toList.flatMap String.utf8EncodeChar

end WorkspaceControl.Utf8
