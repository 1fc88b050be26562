import Attest.Curve.Point

/-!
# Multiples of points

Inverting a coordinate costs hundreds of multiplications. So multiples are computed with a common
denominator: the triple `(x, y, z)` stands for the point `(x / z ^ 2, y / z ^ 3)`, and for
infinity where `z` is zero. Sums of triples need no inverse; one is taken at the end.
-/

namespace Attest.Curve

/-- A point with a common denominator. -/
structure Jacobian where
  x : Coordinate
  y : Coordinate
  z : Coordinate
  deriving DecidableEq, Repr

namespace Jacobian

/-- The triple that stands for infinity. -/
def infinity : Jacobian := ⟨1, 1, 0⟩

/-- A point as a triple. -/
def ofPoint : Point → Jacobian
  | .infinity => infinity
  | .affine x y => ⟨x, y, 1⟩

/-- The point that a triple stands for. -/
def toPoint (p : Jacobian) : Point :=
  if p.z = 0 then .infinity
  else
    let inverse := Residue.inverse p.z
    let square := inverse * inverse
    .affine (p.x * square) (p.y * (square * inverse))

/-- The sum of a triple with itself. -/
def double (p : Jacobian) : Jacobian :=
  let square := p.y * p.y
  let s := 4 * p.x * square
  let m := 3 * p.x * p.x
  let x := m * m - 2 * s
  ⟨x, m * (s - x) - 8 * square * square, 2 * p.y * p.z⟩

/-- The sum of two triples. -/
def add (p q : Jacobian) : Jacobian :=
  if p.z = 0 then q
  else if q.z = 0 then p
  else
    let pz := p.z * p.z
    let qz := q.z * q.z
    let u := p.x * qz
    let s := p.y * (qz * q.z)
    let h := q.x * pz - u
    let r := q.y * (pz * p.z) - s
    if h = 0 then
      if r = 0 then double p else infinity
    else
      let square := h * h
      let cube := square * h
      let v := u * square
      let x := r * r - cube - 2 * v
      ⟨x, r * (v - x) - s * cube, p.z * q.z * h⟩

end Jacobian

/-- The multiple of a point, for a count below `2 ^ 256`. -/
def Point.times (count : Nat) (p : Point) : Point :=
  (repeated Jacobian.add Jacobian.infinity (Jacobian.ofPoint p) 256 count).toPoint

end Attest.Curve
