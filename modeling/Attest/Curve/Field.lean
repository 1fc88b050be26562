import Attest.Residue

/-!
# The field of the curve

Coordinates of curve points are residues modulo the prime `2 ^ 256 - 2 ^ 32 - 977`. As that prime
is 3 modulo 4, a square has the root `a ^ ((prime + 1) / 4)`.
-/

namespace Attest.Curve

/-- The prime modulus of the coordinates. -/
def fieldPrime : Nat := 0xfffffffffffffffffffffffffffffffffffffffffffffffffffffffefffffc2f

instance : @NeZero Nat ⟨0⟩ fieldPrime := ⟨by decide⟩

/-- A coordinate of a curve point. -/
abbrev Coordinate := Fin fieldPrime

namespace Coordinate

/-- A coordinate from its big-endian number; none if the number is not below the modulus. -/
def ofNat? (value : Nat) : Option Coordinate :=
  if h : value < fieldPrime then some ⟨value, h⟩ else none

/-- A square root, or none for a coordinate that is no square. -/
def squareRoot? (a : Coordinate) : Option Coordinate :=
  let root := Residue.power a ((fieldPrime + 1) / 4)
  if root * root = a then some root else none

/-- Whether the coordinate's least residue is odd; of two opposite roots one is odd, since their
residues add up to the odd modulus. -/
def isOdd (a : Coordinate) : Bool := a.val % 2 = 1

end Coordinate

end Attest.Curve
