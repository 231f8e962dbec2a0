/-!
# Finite binary floating point numbers

A `Double` is a sign and a multiple of the smallest step 2⁻¹⁰⁷⁴: its magnitude is
`significand · 2^exponent` such steps, with a significand below 2⁵³ and, unless the exponent is
zero, at least 2⁵². Every finite 64-bit number has exactly one such form, so equality of the parts
is equality of numbers, up to the sign of zero.

Arithmetic is exact on natural numbers and rounds once, to the nearest double and a tie to the
even significand; a result beyond the largest double is `none`.
-/

namespace WorkspaceControl.Decimal

/-- A finite 64-bit floating point number, in steps of 2⁻¹⁰⁷⁴. -/
structure Double where
  negative : Bool
  significand : Nat
  exponent : Nat
  deriving Repr, DecidableEq

namespace Double

/-- The number of steps in one: the smallest step is 2⁻¹⁰⁷⁴. -/
def one : Nat := 1 <<< 1074

/-- The magnitude, counted in smallest steps. -/
def steps (d : Double) : Nat := d.significand <<< d.exponent

/-- The quotient rounded to a natural number, a tie to the even one. -/
def roundQuotient (num den : Nat) : Nat :=
  let q := num / den
  let r := num % den
  if 2 * r > den ∨ (2 * r = den ∧ q % 2 = 1) then q + 1 else q

/-- The double nearest to `num / den` smallest steps, `none` if that is beyond the largest. -/
def nearest? (negative : Bool) (num den : Nat) : Option Double :=
  let exponent := (num / den).log2 - 52
  let significand := roundQuotient num (den <<< exponent)
  -- Rounding up may reach the next power of two, which has one form only.
  let d : Double :=
    if significand = 1 <<< 53 then ⟨negative, 1 <<< 52, exponent + 1⟩
    else ⟨negative, significand, exponent⟩
  -- The largest double is (2⁵³ - 1) · 2²⁰⁴⁵ steps.
  if d.exponent ≤ 2045 then some d else none

def zero (negative : Bool) : Double := ⟨negative, 0, 0⟩

def ofNat? (n : Nat) : Option Double := nearest? false (n * one) 1

def powerOfTen? (k : Nat) : Option Double := ofNat? (Nat.pow 10 k)

def mul? (a b : Double) : Option Double :=
  nearest? a.negative (a.steps * b.steps) one

/-- Division of magnitudes by a number other than zero; the quotient keeps the sign of `a`. -/
def div? (a b : Double) : Option Double :=
  nearest? a.negative (a.steps * one) b.steps

def withSign (d : Double) (negative : Bool) : Double := { d with negative }

/-- Divides by powers of ten no larger than 10³⁰⁸, one after the other, until `k` tens are used up
or nothing is left. -/
def shiftDown? (d : Double) (k : Nat) : Option Double :=
  if k ≤ 308 then
    powerOfTen? k >>= d.div?
  else if d.significand = 0 then some d
  else
    powerOfTen? 308 >>= d.div? >>= fun d => d.shiftDown? (k - 308)
termination_by k

/-- The number written `significand · 10^exponent`, evaluated in floating point: the significand is
rounded to a double and then multiplied or divided by the double nearest to the power of ten. The
two roundings are part of how numbers are read, and make the last digit of a long decimal differ
from the nearest double now and then. `none` is a magnitude beyond the largest double. -/
def ofParts? (negative : Bool) (significand : Nat) (exponent : Int) : Option Double := do
  let d ← ofNat? significand
  let d ←
    match exponent with
    | .ofNat k =>
      if k ≤ 308 then powerOfTen? k >>= d.mul?
      else if significand = 0 then some d
      else none
    | .negSucc k => d.shiftDown? (k + 1)
  return d.withSign negative

end Double

end WorkspaceControl.Decimal
