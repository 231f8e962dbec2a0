import WorkspaceControl.Decimal.Shortest
import WorkspaceControl.Json.Basic

/-!
# Numbers in text

An integer is written in decimal. A double is written with the fewest digits that read back, in
positional form for exponents from -5 to 15 and otherwise as digits and a signed exponent, such as
`1e+16` and `2.5e-7`.
-/

namespace WorkspaceControl

def Decimal.writeInt (n : Int) : List Char :=
  if n < 0 then '-' :: Decimal.digits n.natAbs else Decimal.digits n.natAbs

namespace Number

/-- How doubles are laid out. -/
def layout : Decimal.Layout := ⟨-5, 15⟩

def write : Number → List Char
  | .integer n _ => Decimal.writeInt n
  | .double d => Decimal.writeDouble layout d

end Number

end WorkspaceControl
