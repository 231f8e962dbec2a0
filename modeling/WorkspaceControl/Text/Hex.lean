/-!
# Hexadecimal digits

Digits are written in one case, as the format demands, and read in either.
-/

namespace WorkspaceControl.Hex

/-- The digit of a number below sixteen, with `ten` as the digit of ten. -/
def digit (ten : Char) (n : Nat) : Char :=
  if n < 10 then Char.ofNat ('0'.toNat + n) else Char.ofNat (ten.toNat + (n - 10))

/-- The two digits of a number below 256. -/
def pair (ten : Char) (n : Nat) : List Char := [digit ten (n / 16), digit ten (n % 16)]

/-- A number in digits without leading zeros. -/
def digits (ten : Char) (n : Nat) : List Char :=
  if n < 16 then [digit ten n] else digits ten (n / 16) ++ [digit ten (n % 16)]

/-- The value of a digit of either case. -/
def value? (c : Char) : Option Nat :=
  if '0' ≤ c ∧ c ≤ '9' then some (c.toNat - '0'.toNat)
  else if 'a' ≤ c ∧ c ≤ 'f' then some (c.toNat - 'a'.toNat + 10)
  else if 'A' ≤ c ∧ c ≤ 'F' then some (c.toNat - 'A'.toNat + 10)
  else none

/-- Digits of lower case read back. -/
theorem value?_digit_lower {n : Nat} (h : n < 16) : value? (digit 'a' n) = some n := by
  have all : ∀ m, m < 16 → value? (digit 'a' m) = some m := by decide
  exact all n h

/-- Digits of upper case read back. -/
theorem value?_digit_upper {n : Nat} (h : n < 16) : value? (digit 'A' n) = some n := by
  have all : ∀ m, m < 16 → value? (digit 'A' m) = some m := by decide
  exact all n h

end WorkspaceControl.Hex
