import WorkspaceControl.Text.Hex

/-!
# Percent encoding of query components

A query component carries arbitrary text in a URL. ASCII letters and digits and the marks
`-_.!~*'()` stand for themselves; every other character is written as its UTF-8 bytes, each
as `%` and two uppercase hexadecimal digits. Neither `&`, `=`, `?` nor `#` survives encoding, so
the parts of a query can be found again by splitting at them.

`decode` is the reverse reading: it takes every `%XX` for a byte and every other character for
its own UTF-8 bytes, and reads the bytes as UTF-8.
-/

namespace WorkspaceControl.Percent

/-- The characters that stand for themselves in a query component. -/
def unreserved (c : Char) : Bool :=
  c.isAlphanum || ['-', '_', '.', '!', '~', '*', '\'', '(', ')'].contains c

/-- One byte as `%XX`. -/
def escape (b : UInt8) : List Char :=
  '%' :: Hex.pair 'A' b.toNat

/-- One character of a component: itself, or the escapes of its UTF-8 bytes. -/
def encodeChar (c : Char) : List Char :=
  if unreserved c then [c] else (String.utf8EncodeChar c).flatMap escape

/-- The characters of an encoded component. -/
def encode (text : String) : List Char :=
  text.toList.flatMap encodeChar

/-- The bytes that an encoded component stands for: `%XX` is a byte, and any other character,
a stray `%` included, is its own UTF-8 bytes. -/
def bytes : List Char → List UInt8
  | [] => []
  | '%' :: a :: b :: rest =>
    match Hex.value? a, Hex.value? b with
    | some hi, some lo => UInt8.ofNat (16 * hi + lo) :: bytes rest
    | _, _ => String.utf8EncodeChar '%' ++ bytes (a :: b :: rest)
  | c :: rest => String.utf8EncodeChar c ++ bytes rest

/-- An escape stands for its byte. -/
theorem bytes_escape (b : UInt8) (rest : List Char) : bytes (escape b ++ rest) = b :: bytes rest := by
  have hi : b.toNat / 16 < 16 := by have := b.toNat_lt; omega
  have hb : UInt8.ofNat (16 * (b.toNat / 16) + b.toNat % 16) = b := by
    rw [Nat.div_add_mod, UInt8.ofNat_toNat]
  simp [escape, Hex.pair, bytes, Hex.value?_digit_upper hi,
    Hex.value?_digit_upper (Nat.mod_lt b.toNat (by decide : 16 > 0)), hb]

theorem bytes_flatMap_escape (bs : List UInt8) (rest : List Char) :
    bytes (bs.flatMap escape ++ rest) = bs ++ bytes rest := by
  induction bs with
  | nil => rfl
  | cons b bs ih => simp [bytes_escape, ih]

/-- A character that is no percent sign stands for its own bytes. -/
theorem bytes_cons_of_ne {c : Char} (h : c ≠ '%') (rest : List Char) :
    bytes (c :: rest) = String.utf8EncodeChar c ++ bytes rest := by
  cases rest with
  | nil => simp [bytes]
  | cons a rest => cases rest <;> simp [bytes, h]

/-- Whatever an encoded character is written as, it stands for the bytes of the character. -/
theorem bytes_encodeChar (c : Char) (rest : List Char) :
    bytes (encodeChar c ++ rest) = String.utf8EncodeChar c ++ bytes rest := by
  unfold encodeChar
  split
  · rename_i h
    exact bytes_cons_of_ne (fun e => absurd (e ▸ h) (by decide)) rest
  · exact bytes_flatMap_escape _ rest

/-- The text of an encoded component, `none` if its bytes are not UTF-8. -/
def decode (component : List Char) : Option String :=
  String.fromUTF8? ⟨(bytes component).toArray⟩

end WorkspaceControl.Percent
