import Attest.Curve.Field

/-!
# Points of the curve secp256k1

The curve is `y ^ 2 = x ^ 3 + 7`. Points are added by the chord and tangent rule, with the point
at infinity as the neutral element.
-/

namespace Attest.Curve

/-- The point at infinity, or a pair of coordinates. -/
inductive Point where
  | infinity
  | affine (x y : Coordinate)
  deriving DecidableEq, Repr

/-- The value that the square of `y` has on the curve. -/
def rightSide (x : Coordinate) : Coordinate := x * x * x + 7

/-- Whether two coordinates make a point of the curve. -/
def OnCurve (x y : Coordinate) : Prop := y * y = rightSide x

instance (x y : Coordinate) : Decidable (OnCurve x y) := inferInstanceAs (Decidable (_ = _))

namespace Point

/-- The third intersection of the curve with the line of the given slope through two of its points,
reflected across the horizontal axis. -/
def thirdPoint (slope x₁ y₁ x₂ : Coordinate) : Point :=
  let x := slope * slope - x₁ - x₂
  affine x (slope * (x₁ - x) - y₁)

/-- The sum of two points: by the chord if their `x` differ, by the tangent if they are equal and
not on the horizontal axis, and infinity if they are opposite. -/
def add : Point → Point → Point
  | infinity, q => q
  | p, infinity => p
  | affine x₁ y₁, affine x₂ y₂ =>
    if x₁ ≠ x₂ then thirdPoint ((y₂ - y₁) * Residue.inverse (x₂ - x₁)) x₁ y₁ x₂
    else if y₁ = y₂ ∧ y₁ ≠ 0 then
      thirdPoint (3 * x₁ * x₁ * Residue.inverse (2 * y₁)) x₁ y₁ x₂
    else infinity

/-- The point of the curve with the given `x` and with a `y` of the given oddness, if there is
one. -/
def lift? (x : Coordinate) (odd : Bool) : Option Point := do
  let root ← (rightSide x).squareRoot?
  pure (affine x (if root.isOdd = odd then root else -root))

end Point

/-- The generator that keys and signatures are built on. -/
def generator : Point :=
  .affine 0x79be667ef9dcbbac55a06295ce870b07029bfcdb2dce28d959f2815b16f81798
    0x483ada7726a3c4655da4fbfc0e1108a8fd17b448a68554199c47d08ffb10d4b8

end Attest.Curve
