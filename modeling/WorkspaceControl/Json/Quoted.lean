import WorkspaceControl.Json.Fault
import WorkspaceControl.Text.Hex
import WorkspaceControl.Text.Units

/-!
# Strings in text

A string stands between quotes. The quote, the backslash and the control characters below U+0020
are escaped; everything else, the slash and U+007F included, stands for itself. Reading accepts
every escape: the short ones, `\/`, and `\u` with four hexadecimal digits, where a leading
surrogate has to be followed by a trailing one.

Strings of values that nobody asked for are skipped instead, which checks escapes but not what the
escapes spell.
-/

namespace WorkspaceControl.Quoted

open WorkspaceControl.Units (leading trailing ofPair)

/-- One character between quotes. -/
def escape (c : Char) : List Char :=
  match c with
  | '"' => ['\\', '"']
  | '\\' => ['\\', '\\']
  | '\x08' => ['\\', 'b']
  | '\x0c' => ['\\', 'f']
  | '\n' => ['\\', 'n']
  | '\r' => ['\\', 'r']
  | '\t' => ['\\', 't']
  | c =>
    if c < ' ' then ['\\', 'u', '0', '0'] ++ Hex.pair 'a' c.toNat
    else [c]

/-- The characters of a string with its closing quote, in front of what follows. -/
def writeChars : List Char → List Char → List Char
  | [], rest => '"' :: rest
  | c :: cs, rest => escape c ++ writeChars cs rest

/-- A string in front of what follows. -/
def write (s : String) (rest : List Char) : List Char := '"' :: writeChars s.toList rest

/-- The number of four hexadecimal digits. -/
def fourDigits? (a b c d : Char) : Option Nat := do
  return ((← Hex.value? a) * 16 + (← Hex.value? b)) * 256 + ((← Hex.value? c) * 16 + (← Hex.value? d))

/-- Reads the four digits of a `\u` escape. With fewer than four bytes left the string is
unfinished; otherwise four bytes count as read whatever they are. -/
def readHex (text : List Char) : Except Fault (Nat × List Char) :=
  match text with
  | a :: b :: c :: d :: rest =>
    match fourDigits? a b c d with
    | some n => .ok (n, rest)
    | none => .error ⟨.malformed .invalidEscape, text, 4⟩
  | _ =>
    if (text.flatMap String.utf8EncodeChar).length < 4 then .error (.atEnd .endInString)
    else .error ⟨.malformed .invalidEscape, text, 4⟩

/-- Reads one given character inside an escaped pair. -/
def readPairMark (mark : Char) (text : List Char) : Except Fault (List Char) :=
  match text with
  | [] => .error (.atEnd .endInString)
  | c :: rest => if c = mark then .ok rest else .error (.next .unfinishedSurrogate text)

/-- Reads what follows `\u`: one unit, or two if the first is half of a pair. -/
def readUnicode (text : List Char) : Except Fault (Char × List Char) := do
  let (unit, rest) ← readHex text
  if trailing unit then .error ⟨.malformed .loneSurrogate, rest, 0⟩
  else if leading unit then
    -- The second half has to come as an escape of its own.
    let rest ← readPairMark '\\' rest
    let rest ← readPairMark 'u' rest
    let (second, rest) ← readHex rest
    if trailing second then .ok (ofPair unit second, rest)
    else .error ⟨.malformed .loneSurrogate, rest, 0⟩
  else .ok (Char.ofNat unit, rest)

/-- What the letter of a short escape stands for. -/
def shortEscape? (c : Char) : Option Char :=
  match c with
  | '"' => some '"'
  | '\\' => some '\\'
  | '/' => some '/'
  | 'b' => some '\x08'
  | 'f' => some '\x0c'
  | 'n' => some '\n'
  | 'r' => some '\r'
  | 't' => some '\t'
  | _ => none

/-- Reads what follows a backslash. -/
def readEscape (text : List Char) : Except Fault (Char × List Char) :=
  match text with
  | [] => .error (.atEnd .endInString)
  | 'u' :: rest => readUnicode rest
  | c :: rest =>
    match shortEscape? c with
    | some e => .ok (e, rest)
    | none => .error (.next .invalidEscape text)

/-- Reads the characters of a string up to its closing quote. Each step takes at least one
character, so as much `fuel` as there are characters suffices. -/
def readChars : (fuel : Nat) → List Char → Except Fault (List Char × List Char)
  | _, [] => .error (.atEnd .endInString)
  | 0, _ => .error (.atEnd .endInString)
  | fuel + 1, c :: rest =>
    if c = '"' then .ok ([], rest)
    else if c = '\\' then do
      let (e, rest) ← readEscape rest
      let (cs, rest) ← readChars fuel rest
      return (e :: cs, rest)
    else if c < ' ' then .error (.next .controlCharacter (c :: rest))
    else do
      let (cs, rest) ← readChars fuel rest
      return (c :: cs, rest)

/-- Reads a string after its opening quote. -/
def read (text : List Char) : Except Fault (String × List Char) := do
  let (cs, rest) ← readChars text.length text
  return (String.ofList cs, rest)

/-! ### What is written reads back -/

theorem fourDigits?_pair {n : Nat} (h : n < 256) :
    fourDigits? '0' '0' (Hex.digit 'a' (n / 16)) (Hex.digit 'a' (n % 16)) = some n := by
  have hi : n / 16 < 16 := by omega
  simp only [fourDigits?, Hex.value?_digit_lower hi,
    Hex.value?_digit_lower (Nat.mod_lt n (by decide : 16 > 0))]
  simp [show Hex.value? '0' = some 0 by decide]
  omega

/-- A written character is what it was: itself, or a backslash and an escape of it. -/
theorem escape_cases (c : Char) :
    (escape c = [c] ∧ c ≠ '"' ∧ c ≠ '\\' ∧ ¬ c < ' ') ∨
      ∃ tail, escape c = '\\' :: tail ∧ ∀ rest, readEscape (tail ++ rest) = .ok (c, rest) := by
  unfold escape
  split
  all_goals try exact Or.inr ⟨_, rfl, fun _ => rfl⟩
  rename_i hquote hback _ _ _ _ _
  split
  · rename_i hlow
    refine Or.inr ⟨'u' :: '0' :: '0' :: Hex.pair 'a' c.toNat, rfl, fun rest => ?_⟩
    have hlow : c.toNat < 32 := hlow
    have hlead : leading c.toNat = false := by simp [leading]; omega
    have htrail : trailing c.toNat = false := by simp [trailing]; omega
    simp [readEscape, readUnicode, readHex, Hex.pair, fourDigits?_pair (by omega : c.toNat < 256),
      hlead, htrail, bind, Except.bind]
  · rename_i hlow
    exact Or.inl ⟨rfl, hquote, hback, hlow⟩

theorem readChars_writeChars (cs rest : List Char) (fuel : Nat) (h : cs.length < fuel) :
    readChars fuel (writeChars cs rest) = .ok (cs, rest) := by
  induction cs generalizing fuel with
  | nil =>
    obtain ⟨fuel, rfl⟩ : ∃ m, fuel = m + 1 := ⟨fuel - 1, by simp at h; omega⟩
    simp [writeChars, readChars]
  | cons c cs ih =>
    obtain ⟨fuel, rfl⟩ : ∃ m, fuel = m + 1 := ⟨fuel - 1, by simp at h; omega⟩
    have hm : cs.length < fuel := by simpa using h
    rcases escape_cases c with ⟨he, hquote, hback, hlow⟩ | ⟨tail, he, hread⟩
    · simp [writeChars, he, readChars, hquote, hback, hlow, ih fuel hm, bind, Except.bind, pure,
        Except.pure]
    · simp [writeChars, he, readChars, hread, ih fuel hm, bind, Except.bind, pure, Except.pure]

theorem length_lt_writeChars (cs rest : List Char) : cs.length < (writeChars cs rest).length := by
  induction cs with
  | nil => simp [writeChars]
  | cons c cs ih =>
    have hc : 1 ≤ (escape c).length := by
      rcases escape_cases c with ⟨he, _⟩ | ⟨tail, he, _⟩ <;> simp [he]
    simp only [writeChars, List.length_append, List.length_cons]
    omega

/-- A string that is written is read as itself, whatever follows it. -/
theorem read_writeChars (s : String) (rest : List Char) :
    read (writeChars s.toList rest) = .ok (s, rest) := by
  simp [read, readChars_writeChars _ _ _ (length_lt_writeChars s.toList rest), bind, Except.bind,
    pure, Except.pure]

/-- Skips what follows a backslash. -/
def skipEscape (text : List Char) : Except Fault (List Char) :=
  match text with
  | [] => .error (.atEnd .endInString)
  | 'u' :: rest => Prod.snd <$> readHex rest
  | c :: rest =>
    if (shortEscape? c).isSome then .ok rest else .error (.next .invalidEscape text)

/-- Skips the characters of a string up to its closing quote. A control character is noticed
before it is taken. -/
def skipChars : (fuel : Nat) → List Char → Except Fault (List Char)
  | _, [] => .error (.atEnd .endInString)
  | 0, _ => .error (.atEnd .endInString)
  | fuel + 1, c :: rest =>
    if c = '"' then .ok rest
    else if c = '\\' then skipEscape rest >>= skipChars fuel
    else if c < ' ' then .error ⟨.malformed .controlCharacter, c :: rest, 0⟩
    else skipChars fuel rest

/-- Skips a string after its opening quote. -/
def skip (text : List Char) : Except Fault (List Char) := skipChars text.length text

end WorkspaceControl.Quoted
