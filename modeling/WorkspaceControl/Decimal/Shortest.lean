import WorkspaceControl.Decimal.Digits
import WorkspaceControl.Decimal.Double

/-!
# The shortest decimal that reads back

A double is written with the fewest significant digits that still round to it, and of those with
the digits nearest to its value. `Shortest.find` tests, for one digit, two digits and so on, the
two neighbours of the value on that decimal grid; all comparisons are exact on natural numbers.

`Layout` holds the decision that is a matter of notation: when the digits are written in
positional form.
-/

namespace WorkspaceControl.Decimal

/-- Digits `coefficient` scaled by a power of ten: `coefficient · 10^scale`. -/
structure Scientific where
  coefficient : Nat
  scale : Int
  deriving Repr, DecidableEq

/-- The same number without zeros at the end of its digits. -/
def Scientific.trim (x : Scientific) : Scientific :=
  if x.coefficient ≠ 0 ∧ x.coefficient % 10 = 0 then
    Scientific.trim ⟨x.coefficient / 10, x.scale + 1⟩
  else x
termination_by x.coefficient

namespace Shortest

/-- The decimal exponent of a positive fraction below one: the least `k` with `num · 10^k ≥ den`,
looking at most `fuel` places. -/
def leadingZeros (num den : Nat) : (fuel : Nat) → Nat
  | 0 => 0
  | fuel + 1 => if num ≥ den then 0 else leadingZeros (num * 10) den fuel + 1

/-- The exponent of the leading decimal digit of `num / den`. -/
def leadingExponent (num den : Nat) : Int :=
  if num ≥ den then ((digits (num / den)).length : Int) - 1
  else -(leadingZeros num den 400 : Int)

/-- Whether `coefficient · 10^scale` lies in the interval of numbers that round to a double, given
as `low`, `high` and the unit `den` all scaled by the same power of ten. The ends belong to it
exactly if the significand is even. -/
def within (even : Bool) (low high candidate : Nat) : Bool :=
  if even then low ≤ candidate ∧ candidate ≤ high else low < candidate ∧ candidate < high

/-- The neighbour of the value on the grid of step `10^scale` that rounds to the double, the nearer
one if both do and the even one on a tie. Everything is counted in quarters of the double's last
place over `4 · one`. -/
def onGrid (d : Double) (scale : Int) : Option Nat :=
  let unit := 1 <<< d.exponent
  let up : Nat := Nat.pow 10 (-scale).toNat
  let step := 4 * Double.one * Nat.pow 10 scale.toNat
  let value := 4 * d.significand * unit * up
  -- Just below a power of two the doubles lie twice as close.
  let lowGap := if d.significand = 1 <<< 52 ∧ d.exponent ≠ 0 then 1 else 2
  let low := (4 * d.significand - lowGap) * unit * up
  let high := (4 * d.significand + 2) * unit * up
  let even := d.significand % 2 = 0
  let below := value / step
  let above := below + 1
  match within even low high (below * step), within even low high (above * step) with
  | true, true =>
    let toBelow := value - below * step
    let toAbove := above * step - value
    if toBelow < toAbove ∨ (toBelow = toAbove ∧ below % 2 = 0) then some below else some above
  | true, false => some below
  | false, true => some above
  | false, false => none

/-- Tries grids of more and more digits, at most `fuel` of them. -/
def search (d : Double) (leading : Int) : (fuel : Nat) → (count : Nat) → Scientific
  | 0, count => ⟨0, leading - count + 1⟩
  | fuel + 1, count =>
    let scale := leading - count + 1
    match onGrid d scale with
    | some c => ⟨c, scale⟩
    | none => search d leading fuel (count + 1)

/-- The shortest decimal of a double's magnitude, nearest to it among the shortest. Seventeen
digits always suffice. A neighbour above the value may be a rounder number with fewer digits than
its grid has, hence the trimming. -/
def find (d : Double) : Scientific :=
  (search d (leadingExponent d.steps Double.one) 17 1).trim

end Shortest

/-- How a decimal is laid out in text. -/
structure Layout where
  /-- The least exponent of the leading digit that is written in positional form. -/
  leastPositional : Int
  /-- The greatest exponent of the leading digit that is written in positional form. -/
  mostPositional : Int

namespace Layout

def zeros (n : Nat) : List Char := List.replicate n '0'

/-- An exponent with its sign, which is always written, in as many digits as it has. -/
def writeExponent (e : Int) : List Char :=
  'e' :: (if e < 0 then '-' else '+') :: digits e.natAbs

/-- A decimal in text: positional with at least one digit on each side of the point, or in
scientific form with a point only if there are several digits. -/
def write (layout : Layout) (x : Scientific) : List Char :=
  let ds := digits x.coefficient
  let leading := x.scale + ds.length - 1
  if layout.leastPositional ≤ leading ∧ leading ≤ layout.mostPositional then
    if 0 ≤ x.scale then ds ++ zeros x.scale.toNat ++ ['.', '0']
    else if 0 ≤ leading then
      ds.take (leading.toNat + 1) ++ '.' :: ds.drop (leading.toNat + 1)
    else '0' :: '.' :: (zeros (-leading - 1).toNat ++ ds)
  else
    match ds with
    | [d] => d :: writeExponent leading
    | d :: more => d :: '.' :: (more ++ writeExponent leading)
    | [] => []

end Layout

/-- A double in text, a zero as `0.0` and a negative number, negative zero included, with a
minus sign. -/
def writeDouble (layout : Layout) (d : Double) : List Char :=
  let magnitude := if d.significand = 0 then ['0', '.', '0'] else layout.write (Shortest.find d)
  if d.negative then '-' :: magnitude else magnitude

end WorkspaceControl.Decimal
