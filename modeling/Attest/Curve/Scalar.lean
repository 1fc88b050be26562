import Attest.Residue

/-!
# Scalars

Multiples of the generator are counted modulo its order. A secret key, a nonce and both halves of
a signature have to be scalars other than zero.
-/

namespace Attest.Curve

/-- The order of the generator, a prime. -/
def order : Nat := 0xfffffffffffffffffffffffffffffffebaaedce6af48a03bbfd25e8cd0364141

instance : @NeZero Nat ⟨0⟩ order := ⟨by decide⟩

/-- A number of copies of the generator. -/
abbrev Scalar := Fin order

namespace Scalar

/-- The scalar other than zero that a number is, if it is one as it stands, without reduction. -/
def ofNat? (value : Nat) : Option Scalar :=
  if h : 0 < value ∧ value < order then some ⟨value, h.2⟩ else none

/-- The scalar that a number is modulo the order. -/
def reduce (value : Nat) : Scalar := Fin.ofNat order value

/-- Whether a scalar lies in the upper half of its range. -/
def isHigh (a : Scalar) : Bool := (order - 1) / 2 < a.val

/-- A number is accepted exactly if it lies above zero and below the order. -/
theorem ofNat?_eq_some_iff {value : Nat} {a : Scalar} :
    ofNat? value = some a ↔ a.val = value ∧ a ≠ 0 := by
  unfold ofNat?
  split
  case isTrue h =>
    simp only [Option.some.injEq, Fin.ext_iff, ne_eq, Fin.val_zero]
    omega
  case isFalse h =>
    have := a.isLt
    simp only [reduceCtorEq, false_iff, not_and, Decidable.not_not]
    intro ha
    apply Fin.ext
    simp only [Fin.val_zero]
    omega

@[simp] theorem val_reduce (value : Nat) : (reduce value).val = value % order := rfl

/-- A number that is accepted is the scalar it reduces to. -/
theorem ofNat?_eq_some_reduce {value : Nat} (h : 0 < value ∧ value < order) :
    ofNat? value = some (reduce value) := by
  rw [ofNat?, dif_pos h]
  exact congrArg some (Fin.ext (Nat.mod_eq_of_lt h.2).symm)

/-- A number that is no scalar other than zero is refused. -/
theorem ofNat?_eq_none {value : Nat} (h : ¬(0 < value ∧ value < order)) : ofNat? value = none :=
  dif_neg h

end Scalar

end Attest.Curve
