import Mathlib
import Attest.Proofs.Curve.Group

/-!
# Finding a point by its x

A signature names its nonce point by the `x` and the oddness of the `y`. That this is enough rests
on two facts: opposite roots differ in their oddness, and no point of the curve has a `y` of zero,
since `-7` is no cube.

The main statement is `Point.lift?_eq_some_iff`: `lift?` finds the one point of the curve with
the `x` and the oddness asked for, whenever there is one.
-/

namespace Attest.Curve

open scoped Attest.Residue

namespace Coordinate

/-! ## Square roots -/

theorem mul_self_of_squareRoot? {a root : Coordinate} (h : a.squareRoot? = some root) :
    root * root = a := by
  simp only [squareRoot?, Option.ite_none_right_eq_some, Option.some.injEq] at h
  obtain ⟨hroot, rfl⟩ := h
  exact hroot

/-- The power that is taken for a root squares to the number, if that is a square. -/
theorem pow_mul_self (b : Coordinate) :
    (b * b) ^ ((fieldPrime + 1) / 4) * (b * b) ^ ((fieldPrime + 1) / 4) = b * b := by
  by_cases hb : b = 0
  · subst hb
    rw [mul_zero, zero_pow (by decide), mul_zero]
  · have hexponent : 2 * ((fieldPrime + 1) / 4 + (fieldPrime + 1) / 4) = fieldPrime - 1 + 2 := by
      decide
    rw [← pow_add, ← sq, ← pow_mul, hexponent, pow_add, Residue.pow_sub_one_eq_one hb, one_mul]

/-- Every square has a root that is found, one of the two there are. -/
theorem squareRoot?_mul_self (b : Coordinate) :
    ∃ root, (b * b).squareRoot? = some root ∧ (root = b ∨ root = -b) := by
  have hpower : Residue.power (b * b) ((fieldPrime + 1) / 4) = (b * b) ^ ((fieldPrime + 1) / 4) :=
    Residue.power_eq_pow _ (by decide)
  have hroot := pow_mul_self b
  refine ⟨(b * b) ^ ((fieldPrime + 1) / 4), ?_, mul_self_eq_mul_self_iff.1 hroot⟩
  rw [squareRoot?, hpower]
  exact if_pos hroot

/-! ## Oddness -/

/-- Of two opposite coordinates other than zero exactly one is odd. -/
theorem isOdd_neg {a : Coordinate} (h : a ≠ 0) : (-a).isOdd = !a.isOdd := by
  have hpos : 0 < a.val := Nat.pos_of_ne_zero fun hzero => h (Fin.ext hzero)
  have hlt := a.isLt
  have hprime : fieldPrime % 2 = 1 := by decide
  have hval : (-a).val = fieldPrime - a.val := by
    rw [Fin.val_neg', Nat.mod_eq_of_lt (by omega)]
  rw [isOdd, isOdd, hval, ← decide_not, decide_eq_decide]
  omega

/-- Minus seven is no cube: a third of the way to the exponent that gives one for all coordinates,
its power is still another number. -/
theorem pow_three_ne (x : Coordinate) : x ^ 3 ≠ -7 := by
  intro h
  have hne : x ≠ 0 := by
    rintro rfl
    rw [zero_pow (by decide)] at h
    exact absurd h (by decide)
  have hthird : 3 * ((fieldPrime - 1) / 3) = fieldPrime - 1 := by decide
  have hone : (-7 : Coordinate) ^ ((fieldPrime - 1) / 3) = 1 := by
    rw [← h, ← pow_mul, hthird, Residue.pow_sub_one_eq_one hne]
  rw [← Residue.power_eq_pow _ (by decide)] at hone
  revert hone
  decide +kernel

end Coordinate

/-- No point of the curve lies on the horizontal axis. -/
theorem OnCurve.y_ne_zero {x y : Coordinate} (h : OnCurve x y) : y ≠ 0 := by
  rintro rfl
  refine Coordinate.pow_three_ne x ?_
  rw [OnCurve, rightSide] at h
  linear_combination -h

/-- Two points of the curve with one `x` and one oddness are the same. -/
theorem OnCurve.y_eq {x y y' : Coordinate} (h : OnCurve x y) (h' : OnCurve x y')
    (hodd : y.isOdd = y'.isOdd) : y = y' := by
  rcases mul_self_eq_mul_self_iff.1 (h.trans h'.symm) with heq | heq
  · exact heq
  · rw [heq, Coordinate.isOdd_neg h'.y_ne_zero] at hodd
    exact absurd hodd (Bool.not_ne_self _)

namespace Point

/-- **The lift of an `x`** is the point of the curve with that `x` and the oddness asked for. -/
theorem lift?_eq_some_iff {x : Coordinate} {odd : Bool} {p : Point} :
    lift? x odd = some p ↔ ∃ y, OnCurve x y ∧ y.isOdd = odd ∧ p = affine x y := by
  refine ⟨?_, ?_⟩
  · intro h
    simp only [lift?, Option.bind_eq_bind, Option.bind_eq_some_iff, Option.pure_def,
      Option.some.injEq] at h
    obtain ⟨root, hroot, rfl⟩ := h
    have hon : OnCurve x root := Coordinate.mul_self_of_squareRoot? hroot
    by_cases hodd : root.isOdd = odd
    · exact ⟨root, hon, hodd, by rw [if_pos hodd]⟩
    · refine ⟨-root, ?_, ?_, by rw [if_neg hodd]⟩
      · rw [OnCurve, neg_mul_neg]
        exact hon
      · rw [Coordinate.isOdd_neg hon.y_ne_zero]
        exact Bool.eq_not_of_ne hodd ▸ Bool.not_not _
  · rintro ⟨y, hon, rfl, rfl⟩
    obtain ⟨root, hroot, hcases⟩ := Coordinate.squareRoot?_mul_self y
    have hright : (rightSide x).squareRoot? = some root := hon ▸ hroot
    simp only [lift?, hright, Option.bind_eq_bind, Option.bind_some, Option.pure_def,
      Option.some.injEq, affine.injEq, true_and]
    rcases hcases with rfl | rfl
    · rw [if_pos rfl]
    · rw [Coordinate.isOdd_neg hon.y_ne_zero, if_neg (Bool.not_ne_self _), neg_neg]

end Point

end Attest.Curve
