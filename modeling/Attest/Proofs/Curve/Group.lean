import Mathlib
import Attest.Curve.Jacobian
import Attest.Proofs.Residue

/-!
# The points of the curve as a group

Points are pairs of coordinates and are added by formulas; multiples of points are computed with a
common denominator. Here both are tied to the group of points of a Weierstrass curve: a
`CurvePoint` is a point that is known to lie on the curve, and `Point.ofCurve` forgets that.

The main statements are `Point.ofCurve_add` (the formulas are the group law), `Jacobian.toPoint_add`
(triples are added as the points they stand for) and `Point.times_ofCurve` (multiples are
multiples in the group).
-/

namespace Attest.Curve

open scoped Attest.Residue

/-- The curve `y ^ 2 = x ^ 3 + 7`. -/
@[simps] def secp256k1 : WeierstrassCurve.Affine Coordinate where
  a₁ := 0
  a₂ := 0
  a₃ := 0
  a₄ := 0
  a₆ := 7

/-- A point of the curve: infinity, or coordinates that satisfy the equation. -/
abbrev CurvePoint := secp256k1.Point

theorem secp256k1_negY (x y : Coordinate) : secp256k1.negY x y = -y := by
  simp [WeierstrassCurve.Affine.negY]

theorem secp256k1_Δ_ne_zero : secp256k1.Δ ≠ 0 := by decide +kernel

/-- The curve has no singular points, so its equation is all that a point has to satisfy. -/
theorem nonsingular_iff {x y : Coordinate} : secp256k1.Nonsingular x y ↔ OnCurve x y := by
  rw [← WeierstrassCurve.Affine.equation_iff_nonsingular_of_Δ_ne_zero secp256k1_Δ_ne_zero,
    WeierstrassCurve.Affine.equation_iff, OnCurve, rightSide]
  simp only [secp256k1_a₁, secp256k1_a₂, secp256k1_a₃, secp256k1_a₄, secp256k1_a₆]
  refine ⟨?_, ?_⟩
  · intro h
    linear_combination h
  · intro h
    linear_combination h

namespace Point

/-- A point of the curve as a point. -/
def ofCurve : CurvePoint → Point
  | .zero => infinity
  | .some x y _ => affine x y

@[simp] theorem ofCurve_zero : ofCurve 0 = infinity := rfl

@[simp] theorem ofCurve_some {x y : Coordinate} (h : secp256k1.Nonsingular x y) :
    ofCurve (.some x y h) = affine x y := rfl

theorem ofCurve_injective : Function.Injective ofCurve := by
  rintro (_ | ⟨x, y, h⟩) (_ | ⟨x', y', h'⟩) heq
  · rfl
  · cases heq
  · cases heq
  · cases heq
    rfl

theorem two_ne_zero : (2 : Coordinate) ≠ 0 := by decide

/-- Only zero is its own opposite. -/
theorem eq_zero_of_eq_neg {y : Coordinate} (h : y = -y) : y = 0 := by
  have hsum : 2 * y = 0 := by linear_combination h
  exact (mul_eq_zero.1 hsum).resolve_left two_ne_zero

/-- The chord and the tangent of the group law meet the curve where `thirdPoint` says. -/
theorem thirdPoint_eq (slope x₁ y₁ x₂ : Coordinate) :
    thirdPoint slope x₁ y₁ x₂ =
      affine (secp256k1.addX x₁ x₂ slope) (secp256k1.addY x₁ x₂ y₁ slope) := by
  simp only [thirdPoint, WeierstrassCurve.Affine.addY, WeierstrassCurve.Affine.negAddY,
    secp256k1_negY, WeierstrassCurve.Affine.addX, secp256k1_a₁, secp256k1_a₂, affine.injEq]
  constructor <;> ring

/-- **The formulas are the group law.** -/
@[simp] theorem ofCurve_add (P Q : CurvePoint) :
    ofCurve (P + Q) = (ofCurve P).add (ofCurve Q) := by
  rcases P with _ | ⟨x₁, y₁, h₁⟩
  · rw [← WeierstrassCurve.Affine.Point.zero_def, zero_add]
    cases ofCurve Q <;> rfl
  rcases Q with _ | ⟨x₂, y₂, h₂⟩
  · rw [← WeierstrassCurve.Affine.Point.zero_def, add_zero]
    rfl
  by_cases hx : x₁ = x₂
  · subst hx
    by_cases hy : y₁ = -y₂
    · -- the two points are opposite, or one point on the horizontal axis
      have hnot : ¬(y₁ = y₂ ∧ y₁ ≠ 0) := by
        rintro ⟨rfl, hne⟩
        exact hne (eq_zero_of_eq_neg hy)
      rw [WeierstrassCurve.Affine.Point.add_of_Y_eq rfl (by rw [secp256k1_negY, hy]), ofCurve_some,
        ofCurve_some, add, if_neg (not_not.2 rfl), if_neg hnot]
      rfl
    · obtain rfl : y₁ = y₂ := by
        have hcases := WeierstrassCurve.Affine.Y_eq_of_X_eq h₁.1 h₂.1 rfl
        rw [secp256k1_negY] at hcases
        exact hcases.resolve_right hy
      have hne : y₁ ≠ 0 := by
        rintro rfl
        exact hy neg_zero.symm
      have hnegY : y₁ ≠ secp256k1.negY x₁ y₁ := by rwa [secp256k1_negY]
      have hslope : secp256k1.slope x₁ x₁ y₁ y₁ = 3 * x₁ * x₁ * (2 * y₁)⁻¹ := by
        rw [WeierstrassCurve.Affine.slope_of_Y_ne rfl hnegY, secp256k1_negY]
        simp only [secp256k1_a₁, secp256k1_a₂, secp256k1_a₄]
        have hdouble : y₁ - -y₁ = 2 * y₁ := by ring
        rw [hdouble, div_eq_mul_inv]
        ring
      rw [WeierstrassCurve.Affine.Point.add_self_of_Y_ne hnegY, ofCurve_some, ofCurve_some, add,
        if_neg (not_not.2 rfl), if_pos ⟨rfl, hne⟩, thirdPoint_eq, Residue.inverse_eq_inv, hslope]
  · have hslope : secp256k1.slope x₁ x₂ y₁ y₂ = (y₂ - y₁) * (x₂ - x₁)⁻¹ := by
      rw [WeierstrassCurve.Affine.slope_of_X_ne hx]
      have h₁ : x₁ - x₂ ≠ 0 := sub_ne_zero.2 hx
      have h₂ : x₂ - x₁ ≠ 0 := sub_ne_zero.2 (Ne.symm hx)
      field_simp
      ring
    rw [WeierstrassCurve.Affine.Point.add_of_X_ne hx, ofCurve_some, ofCurve_some, ofCurve_some,
      add, if_pos hx, thirdPoint_eq, Residue.inverse_eq_inv, hslope]

end Point

/-! ## Triples -/

namespace Jacobian

theorem toPoint_of_z_eq_zero {p : Jacobian} (h : p.z = 0) : p.toPoint = .infinity := if_pos h

theorem toPoint_of_z_ne_zero {p : Jacobian} (h : p.z ≠ 0) :
    p.toPoint = .affine (p.x * p.z⁻¹ ^ 2) (p.y * p.z⁻¹ ^ 3) := by
  rw [toPoint, if_neg h]
  simp only [Residue.inverse_eq_inv, Point.affine.injEq]
  constructor <;> ring

@[simp] theorem toPoint_infinity : infinity.toPoint = .infinity := rfl

@[simp] theorem toPoint_ofPoint (p : Point) : (ofPoint p).toPoint = p := by
  cases p with
  | infinity => rfl
  | affine x y =>
    rw [ofPoint, toPoint_of_z_ne_zero (show (1 : Coordinate) ≠ 0 by decide)]
    simp

theorem toPoint_double (p : Jacobian) : p.double.toPoint = p.toPoint.add p.toPoint := by
  by_cases hz : p.z = 0
  · rw [toPoint_of_z_eq_zero hz, toPoint_of_z_eq_zero (by simp [double, hz])]
    rfl
  rw [toPoint_of_z_ne_zero hz, Point.add, if_neg (not_not.2 rfl)]
  by_cases hy : p.y = 0
  · rw [toPoint_of_z_eq_zero (by simp [double, hy]), if_neg (by simp [hy])]
  · have hz' : p.double.z ≠ 0 := mul_ne_zero (mul_ne_zero Point.two_ne_zero hy) hz
    have hy' : p.y * p.z⁻¹ ^ 3 ≠ 0 := mul_ne_zero hy (pow_ne_zero _ (inv_ne_zero hz))
    have h2 := Point.two_ne_zero
    rw [toPoint_of_z_ne_zero hz', if_pos ⟨rfl, hy'⟩, Point.thirdPoint, Residue.inverse_eq_inv]
    simp only [double, Point.affine.injEq]
    refine ⟨?_, ?_⟩
    · field_simp
      ring
    · field_simp
      ring

/-- Two quotients are compared without dividing. -/
theorem quotient_eq_iff {a b z w : Coordinate} (hz : z ≠ 0) (hw : w ≠ 0) (k : ℕ) :
    a * z⁻¹ ^ k = b * w⁻¹ ^ k ↔ b * z ^ k - a * w ^ k = 0 := by
  have hz' : z ^ k ≠ 0 := pow_ne_zero k hz
  have hw' : w ^ k ≠ 0 := pow_ne_zero k hw
  rw [inv_pow, inv_pow, ← div_eq_mul_inv, ← div_eq_mul_inv, div_eq_div_iff hz' hw', sub_eq_zero,
    eq_comm]

/-- The slope of the chord through the points of two triples. -/
theorem chord_slope {x₁ y₁ z₁ x₂ y₂ z₂ : Coordinate} (hz₁ : z₁ ≠ 0) (hz₂ : z₂ ≠ 0)
    (hne : x₂ * z₁ ^ 2 - x₁ * z₂ ^ 2 ≠ 0) :
    (y₂ * z₂⁻¹ ^ 3 - y₁ * z₁⁻¹ ^ 3) * (x₂ * z₂⁻¹ ^ 2 - x₁ * z₁⁻¹ ^ 2)⁻¹ =
      (y₂ * z₁ ^ 3 - y₁ * z₂ ^ 3) * (z₁ * z₂ * (x₂ * z₁ ^ 2 - x₁ * z₂ ^ 2))⁻¹ := by
  have hx : x₂ * z₂⁻¹ ^ 2 - x₁ * z₁⁻¹ ^ 2 =
      (x₂ * z₁ ^ 2 - x₁ * z₂ ^ 2) * (z₁ * z₂)⁻¹ ^ 2 := by field_simp
  have hy : y₂ * z₂⁻¹ ^ 3 - y₁ * z₁⁻¹ ^ 3 =
      (y₂ * z₁ ^ 3 - y₁ * z₂ ^ 3) * (z₁ * z₂)⁻¹ ^ 3 := by field_simp
  rw [hx, hy]
  generalize x₂ * z₁ ^ 2 - x₁ * z₂ ^ 2 = h at hne ⊢
  field_simp

/-- **Triples are added as the points they stand for**, whether or not these lie on the curve. -/
theorem toPoint_add (p q : Jacobian) : (p.add q).toPoint = p.toPoint.add q.toPoint := by
  by_cases hp : p.z = 0
  · rw [add, if_pos hp, toPoint_of_z_eq_zero hp]
    cases q.toPoint <;> rfl
  by_cases hq : q.z = 0
  · rw [add, if_neg hp, if_pos hq, toPoint_of_z_eq_zero hq]
    cases p.toPoint <;> rfl
  have hx := quotient_eq_iff (a := p.x) (b := q.x) hp hq 2
  have hy := quotient_eq_iff (a := p.y) (b := q.y) hp hq 3
  have hh : q.x * (p.z * p.z) - p.x * (q.z * q.z) = q.x * p.z ^ 2 - p.x * q.z ^ 2 := by ring
  have hr : q.y * (p.z * p.z * p.z) - p.y * (q.z * q.z * q.z) =
      q.y * p.z ^ 3 - p.y * q.z ^ 3 := by ring
  simp only [add, if_neg hp, if_neg hq, hh, hr]
  by_cases hxeq : q.x * p.z ^ 2 - p.x * q.z ^ 2 = 0
  · rw [if_pos hxeq]
    by_cases hyeq : q.y * p.z ^ 3 - p.y * q.z ^ 3 = 0
    · have hsame : q.toPoint = p.toPoint := by
        rw [toPoint_of_z_ne_zero hp, toPoint_of_z_ne_zero hq, hx.2 hxeq, hy.2 hyeq]
      rw [if_pos hyeq, toPoint_double, hsame]
    · rw [if_neg hyeq, toPoint_infinity, toPoint_of_z_ne_zero hp, toPoint_of_z_ne_zero hq,
        Point.add, if_neg (not_not.2 (hx.2 hxeq)), if_neg fun h => hyeq (hy.1 h.1)]
  · rw [if_neg hxeq, toPoint_of_z_ne_zero hp, toPoint_of_z_ne_zero hq, Point.add,
      if_pos (mt hx.1 hxeq), toPoint_of_z_ne_zero (mul_ne_zero (mul_ne_zero hp hq) hxeq),
      Point.thirdPoint, Residue.inverse_eq_inv]
    rw [chord_slope hp hq hxeq]
    -- the difference of the `x` becomes an unknown that the second `x` is expressed by
    generalize hdef : q.x * p.z ^ 2 - p.x * q.z ^ 2 = h at hxeq ⊢
    have hqx : q.x = (h + p.x * q.z ^ 2) * p.z⁻¹ ^ 2 := by
      rw [← hdef]
      field_simp
      ring
    rw [hqx]
    generalize q.y * p.z ^ 3 - p.y * q.z ^ 3 = r
    simp only [Point.affine.injEq]
    refine ⟨?_, ?_⟩
    · field_simp
      ring
    · field_simp
      ring

end Jacobian

/-! ## Multiples -/

namespace Point

theorem times_eq_repeated (count : ℕ) (p : Point) :
    p.times count = repeated add infinity p 256 count := by
  rw [times, repeated_map Jacobian.toPoint_add, Jacobian.toPoint_infinity,
    Jacobian.toPoint_ofPoint]

/-- **Multiples are multiples in the group.** -/
theorem times_ofCurve {count : ℕ} (h : count < Nat.pow 2 256) (P : CurvePoint) :
    (ofCurve P).times count = ofCurve (count • P) := by
  rw [times_eq_repeated, ← ofCurve_zero, ← repeated_map ofCurve_add]
  congr 1
  exact @repeated_eq _ _ _ _ (fun k => k • P) (zero_nsmul P) (one_nsmul P)
    (fun i j => add_nsmul P i j) _ _ h

end Point

end Attest.Curve
