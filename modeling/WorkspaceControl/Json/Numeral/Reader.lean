import WorkspaceControl.Decimal.Digits
import WorkspaceControl.Json.Fault

/-!
# Numbers read from text

The digits before and after the point go into one significand as long as it stays below 2⁶⁴. The
digits of the integer part that no longer fit count only as powers of ten, those of the fraction
that no longer fit do not count at all. Digits without point and exponent whose value fits are an
integer; anything else is a double, evaluated by `Double.ofParts?`.

Numbers that nobody asked for are skipped by their form alone, whatever their size.
-/

namespace WorkspaceControl.Number

open Decimal (digitValue Double)

/-- Whether a text goes on with a digit. -/
def startsWithDigit : List Char → Bool
  | c :: _ => c.isDigit
  | [] => false

/-- Takes digits into a significand while it stays below 2⁶⁴, and counts them. -/
def takeFitting (significand : Nat) : List Char → Nat × Nat × List Char
  | [] => (significand, 0, [])
  | c :: rest =>
    if c.isDigit ∧ 10 * significand + digitValue c < 0x10000000000000000 then
      let (s, count, rest) := takeFitting (10 * significand + digitValue c) rest
      (s, count + 1, rest)
    else (significand, 0, c :: rest)

/-- The greatest exponent that is read digit by digit. -/
def greatestExponent : Nat := 0x7FFFFFFF

/-- Takes the digits of an exponent, up to the one that makes it too great. -/
def takeExponent (exponent : Nat) : List Char → Option Nat × List Char
  | [] => (some exponent, [])
  | c :: rest =>
    if c.isDigit then
      let exponent := 10 * exponent + digitValue c
      if exponent ≤ greatestExponent then takeExponent exponent rest else (none, rest)
    else (some exponent, c :: rest)

/-- The double of a significand and an exponent, unless it is too great. -/
def finish (negative : Bool) (significand : Nat) (exponent : Int) (rest : List Char) :
    Except Fault (Number × List Char) :=
  match Double.ofParts? negative significand exponent with
  | some d => .ok (.double d, rest)
  | none => .error ⟨.malformed .numberOutOfRange, rest, 0⟩

/-- Reads what follows the `e` of an exponent. An exponent too great to read is an error if it makes
the number too great, and makes a zero otherwise. -/
def readExponent (negative : Bool) (significand : Nat) (exponent : Int) (text : List Char) :
    Except Fault (Number × List Char) :=
  let (down, digits) :=
    match text with
    | '+' :: rest => (false, rest)
    | '-' :: rest => (true, rest)
    | _ => (false, text)
  if startsWithDigit digits then
    match takeExponent 0 digits with
    | (some e, rest) => finish negative significand (if down then exponent - e else exponent + e) rest
    | (none, rest) =>
      -- A great exponent that goes down, or one of a zero, is harmless: its other digits are passed.
      if significand ≠ 0 ∧ ¬down then .error ⟨.malformed .numberOutOfRange, rest, 0⟩
      else .ok (.double (Double.zero negative), rest.dropWhile Char.isDigit)
  else
    match digits with
    | [] => .error (.atEnd .endInValue)
    | _ => .error (.next .invalidNumber digits)

/-- Reads an exponent if there is one. -/
def readScale (negative : Bool) (significand : Nat) (exponent : Int) (text : List Char) :
    Except Fault (Number × List Char) :=
  match text with
  | 'e' :: rest | 'E' :: rest => readExponent negative significand exponent rest
  | _ => finish negative significand exponent text

/-- Reads what follows the point. -/
def readFraction (negative : Bool) (significand : Nat) (exponent : Int) (text : List Char) :
    Except Fault (Number × List Char) :=
  let (significand, count, rest) := takeFitting significand text
  if count = 0 ∧ ¬startsWithDigit rest then
    match rest with
    | [] => .error (.atEnd .endInValue)
    | _ => .error (.next .invalidNumber rest)
  else
    -- Each digit that fitted moved the point; the digits that did not are dropped from the value.
    readScale negative significand (exponent - count) (rest.dropWhile Char.isDigit)

/-- Reads what follows the integer part, of which `dropped` digits did not fit the significand. -/
def readTail (negative : Bool) (significand dropped : Nat) (text : List Char) :
    Except Fault (Number × List Char) :=
  match text with
  | '.' :: rest => readFraction negative significand dropped rest
  | 'e' :: rest | 'E' :: rest => readExponent negative significand dropped rest
  | _ =>
    if dropped = 0 then .ok (ofDigits negative significand, text)
    else finish negative significand dropped text

/-- Reads a number after its sign. A zero in front is the whole integer part. -/
def read (negative : Bool) (text : List Char) : Except Fault (Number × List Char) :=
  match text with
  | [] => .error (.atEnd .endInValue)
  | '0' :: rest =>
    if startsWithDigit rest then .error (.next .invalidNumber rest) else readTail negative 0 0 rest
  | c :: _ =>
    if c.isDigit then
      let (significand, _, rest) := takeFitting 0 text
      let dropped := (rest.takeWhile Char.isDigit).length
      readTail negative significand dropped (rest.dropWhile Char.isDigit)
    else .error (.next .invalidNumber text)

/-- Skips what follows the `e` of an exponent. -/
def skipExponent (text : List Char) : Except Fault (List Char) :=
  let digits :=
    match text with
    | '+' :: rest | '-' :: rest => rest
    | _ => text
  if startsWithDigit digits then .ok (digits.dropWhile Char.isDigit)
  else .error (.next .invalidNumber digits)

/-- Skips an exponent if there is one. -/
def skipScale (text : List Char) : Except Fault (List Char) :=
  match text with
  | 'e' :: rest | 'E' :: rest => skipExponent rest
  | _ => .ok text

/-- Skips what follows the integer part. -/
def skipTail (text : List Char) : Except Fault (List Char) :=
  match text with
  | '.' :: rest =>
    if startsWithDigit rest then skipScale (rest.dropWhile Char.isDigit)
    else .error (.next .invalidNumber rest)
  | _ => skipScale text

/-- Skips a number after its sign. -/
def skip (text : List Char) : Except Fault (List Char) :=
  match text with
  | '0' :: rest =>
    if startsWithDigit rest then .error (.next .invalidNumber rest) else skipTail rest
  | _ =>
    if startsWithDigit text then skipTail (text.dropWhile Char.isDigit)
    else .error (.next .invalidNumber text)

end WorkspaceControl.Number
