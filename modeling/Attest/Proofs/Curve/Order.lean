import Mathlib
import Attest.Curve.Scalar
import Attest.Proofs.Curve.Lift

/-!
# The order of the curve

The group of points has exactly `order` elements. The generator has that order, as one computed
multiple shows, so `order` divides the number of points. Since each `x` belongs to at most two
points there are fewer than `3 * order` of them, and there are not `2 * order`, since a point of
order two would lie on the horizontal axis.

The main statements are `card_curvePoint` and its consequence, the action of scalars on points:
points are a vector space over the field of scalars, so that equations between multiples of points
are solved like any linear equations.
-/

namespace Attest.Curve

open scoped Attest.Residue

/-! ## The generator -/

/-- The generator as a point of the curve. -/
def base : CurvePoint :=
  .some 0x79be667ef9dcbbac55a06295ce870b07029bfcdb2dce28d959f2815b16f81798
    0x483ada7726a3c4655da4fbfc0e1108a8fd17b448a68554199c47d08ffb10d4b8
    (nonsingular_iff.2 (by decide))

@[simp] theorem ofCurve_base : Point.ofCurve base = generator := rfl

theorem base_ne_zero : base ≠ 0 := WeierstrassCurve.Affine.Point.some_ne_zero _

theorem order_nsmul_base : order • base = 0 := by
  have hcomputed : generator.times order = .infinity := by decide +kernel
  apply Point.ofCurve_injective
  rw [← Point.times_ofCurve (by decide), ofCurve_base, hcomputed, Point.ofCurve_zero]

/-- The generator has the order that scalars are reduced by. -/
theorem addOrderOf_base : addOrderOf base = order :=
  addOrderOf_eq_prime order_nsmul_base base_ne_zero

/-! ## Counting points -/

/-- A point is known by its `x` and the oddness of its `y`. -/
def code : CurvePoint → Option (Coordinate × Bool)
  | .zero => none
  | .some x y _ => some (x, y.isOdd)

theorem code_injective : Function.Injective code := by
  rintro (_ | ⟨x, y, h⟩) (_ | ⟨x', y', h'⟩) heq
  · rfl
  · cases heq
  · cases heq
  · simp only [code, Option.some.injEq, Prod.mk.injEq] at heq
    obtain ⟨rfl, hodd⟩ := heq
    obtain rfl := (nonsingular_iff.1 h).y_eq (nonsingular_iff.1 h') hodd
    rfl

instance : Finite CurvePoint := Finite.of_injective code code_injective

theorem card_le : Nat.card CurvePoint ≤ 2 * fieldPrime + 1 := by
  have hcodes : Nat.card (Option (Coordinate × Bool)) = 2 * fieldPrime + 1 := by
    rw [Finite.card_option, Nat.card_prod, Nat.card_fin, Nat.card_eq_fintype_card,
      Fintype.card_bool, Nat.mul_comm]
  rw [← hcodes]
  exact Nat.card_le_card_of_injective code code_injective

/-- A point that is its own opposite is infinity. -/
theorem eq_zero_of_eq_neg {P : CurvePoint} (h : P = -P) : P = 0 := by
  rcases P with _ | ⟨x, y, hP⟩
  · rfl
  · rw [WeierstrassCurve.Affine.Point.neg_some] at h
    simp only [WeierstrassCurve.Affine.Point.some.injEq, true_and, secp256k1_negY] at h
    exact absurd (Point.eq_zero_of_eq_neg h) (nonsingular_iff.1 hP).y_ne_zero

/-- There is no point of order two, so the number of points is odd. -/
theorem not_two_dvd_card : ¬2 ∣ Nat.card CurvePoint := by
  intro hdvd
  obtain ⟨P, hP⟩ := exists_prime_addOrderOf_dvd_card' 2 hdvd
  have htwo : P + P = 0 := by
    rw [← two_nsmul, ← hP, addOrderOf_nsmul_eq_zero]
  rw [eq_zero_of_eq_neg (eq_neg_of_add_eq_zero_left htwo), addOrderOf_zero] at hP
  cases hP

/-- **The curve has as many points as there are scalars.** -/
theorem card_curvePoint : Nat.card CurvePoint = order := by
  obtain ⟨k, hk⟩ : order ∣ Nat.card CurvePoint := addOrderOf_base ▸ addOrderOf_dvd_natCard base
  have hpos : 0 < Nat.card CurvePoint := Nat.card_pos
  have hle := card_le
  have hodd := not_two_dvd_card
  have hbound : 2 * fieldPrime + 1 < 3 * order := by decide
  have hk_pos : 0 < k := Nat.pos_of_ne_zero fun h => by simp [h] at hk; omega
  have hk_lt : k < 3 := by
    have hlt : order * k < order * 3 := by omega
    exact Nat.lt_of_mul_lt_mul_left hlt
  have hk_ne : k ≠ 2 := by
    rintro rfl
    exact hodd ⟨order, by rw [hk, Nat.mul_comm]⟩
  obtain rfl : k = 1 := by omega
  rw [hk, Nat.mul_one]

/-- The multiple by the order is infinity, for every point. -/
theorem order_nsmul (P : CurvePoint) : order • P = 0 := by
  rw [← card_curvePoint]
  exact card_nsmul_eq_zero'

/-! ## Scalars act on points -/

/-- Multiples depend only on the count modulo the order. -/
theorem mod_order_nsmul (count : ℕ) (P : CurvePoint) : (count % order) • P = count • P := by
  conv_rhs => rw [← Nat.mod_add_div count order, add_nsmul, mul_nsmul, order_nsmul, nsmul_zero,
    add_zero]

/-- **Points are a vector space over the field of scalars.** -/
instance : Module Scalar CurvePoint where
  smul a P := a.val • P
  one_smul P := by
    change (1 : Scalar).val • P = P
    rw [show (1 : Scalar).val = 1 by decide, one_nsmul]
  mul_smul a b P := by
    change (a * b).val • P = a.val • b.val • P
    rw [Fin.val_mul, mod_order_nsmul, Nat.mul_comm, mul_nsmul]
  smul_zero a := nsmul_zero a.val
  smul_add a P Q := nsmul_add P Q a.val
  add_smul a b P := by
    change (a + b).val • P = a.val • P + b.val • P
    rw [Fin.val_add, mod_order_nsmul, add_nsmul]
  zero_smul P := zero_nsmul P

theorem smul_eq_nsmul (a : Scalar) (P : CurvePoint) : a • P = a.val • P := rfl

/-- Multiples by a scalar are computed by doubling. -/
theorem Point.times_val (a : Scalar) (P : CurvePoint) :
    (ofCurve P).times a.val = ofCurve (a • P) := by
  have hbound : order ≤ Nat.pow 2 256 := by decide
  rw [smul_eq_nsmul, times_ofCurve (a.isLt.trans_le hbound)]

end Attest.Curve
