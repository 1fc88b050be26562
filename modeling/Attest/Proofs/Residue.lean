import Mathlib
import Attest.Proofs.Primality

/-!
# Residues form a field

Residues modulo an odd prime of at most 256 bits form a field whose inverse is
`Residue.inverse`. The structure is put on `Fin m` itself, so that the operations of the field are
the ones that points and signatures are computed with. It is an instance only where
`Attest.Residue` is open. A quotient is written `a * b⁻¹` throughout, since `a / b` on `Fin m` is
the quotient of the least residues.

The main statements are `power_eq_pow` (powers by doubling are powers) and `field`.
-/

namespace Attest.Residue

variable {m : ℕ}

/-- A modulus that powers and inverses are computed right for. -/
class IsModulus (m : ℕ) : Prop where
  /-- the modulus is prime -/
  prime : m.Prime
  /-- the modulus is odd, so that zero has the inverse zero -/
  two_lt : 2 < m
  /-- exponents below the modulus have at most 256 bits -/
  le : m ≤ Nat.pow 2 256

instance : IsModulus Curve.fieldPrime := ⟨Primality.prime_fieldPrime, by decide, by decide⟩

instance : IsModulus Curve.order := ⟨Primality.prime_order, by decide, by decide⟩

scoped instance [IsModulus m] : Fact m.Prime := ⟨IsModulus.prime⟩

scoped instance [IsModulus m] : NeZero m := ⟨(IsModulus.prime (m := m)).ne_zero⟩

section CommRing

open scoped Fin.CommRing

/-- Powers by doubling are powers. -/
theorem power_eq_pow [NeZero m] (a : Fin m) {exponent : ℕ} (h : exponent < Nat.pow 2 256) :
    power a exponent = a ^ exponent := by
  refine @repeated_eq _ _ _ _ (fun k => a ^ k) ?_ ?_ ?_ _ _ h
  · rw [pow_zero]
    rfl
  · exact pow_one a
  · intro i j
    exact pow_add a i j

variable [IsModulus m]

/-- Fermat's little theorem. -/
theorem pow_sub_one_eq_one {a : Fin m} (h : a ≠ 0) : a ^ (m - 1) = 1 := by
  obtain ⟨n, rfl⟩ : ∃ n, m = n + 1 := ⟨m - 1, (Nat.succ_pred (NeZero.ne m)).symm⟩
  exact ZMod.pow_card_sub_one_eq_one (p := n + 1) h

theorem inverse_eq_pow (a : Fin m) : inverse a = a ^ (m - 2) := by
  have hle := IsModulus.le (m := m)
  have hpos := NeZero.pos m
  rw [inverse, power_eq_pow a (by omega)]

theorem mul_inverse {a : Fin m} (h : a ≠ 0) : a * inverse a = 1 := by
  have hlt := IsModulus.two_lt (m := m)
  rw [inverse_eq_pow, ← pow_succ', show m - 2 + 1 = m - 1 by omega, pow_sub_one_eq_one h]

theorem inverse_zero : inverse (0 : Fin m) = 0 := by
  have hlt := IsModulus.two_lt (m := m)
  rw [inverse_eq_pow, zero_pow (by omega)]

/-- **Residues modulo an odd prime form a field**, with the inverse that is computed. -/
scoped instance field (m : ℕ) [IsModulus m] : Field (Fin m) where
  toCommRing := Fin.instCommRing m
  inv := inverse
  div a b := a * inverse b
  exists_pair_ne := ⟨0, 1, by
    have hlt := IsModulus.two_lt (m := m)
    rw [ne_eq, Fin.ext_iff, Fin.val_zero, Fin.val_one', Nat.mod_eq_of_lt (by omega)]
    omega⟩
  mul_inv_cancel _ := mul_inverse
  inv_zero := inverse_zero
  nnqsmul := _
  nnqsmul_def := fun _ _ => rfl
  qsmul := _
  qsmul_def := fun _ _ => rfl

end CommRing

/-- The inverse that is computed is the inverse of the field. -/
theorem inverse_eq_inv [IsModulus m] (a : Fin m) : inverse a = a⁻¹ := rfl

end Attest.Residue
