import Mathlib
import Attest.Ecdsa.Signing
import Attest.Proofs.Curve.Order

/-!
# Recovery inverts verification

To verify a signature under a key is to compute the point `(digest / s) G + (r / s) Q` and to see
whether the signature names it: its `x` has to be `r`, and its `y` has to be odd where the
signature says so. Recovery goes the other way, from the point that is named to the key.

The main statements are `recover?_eq_some_iff` (recovery finds exactly the key under which the
signature verifies), `Verifies.unique` (there is at most one) and `Verifies.twin` (the twin of a
signature verifies under the same key).
-/

namespace Attest.Ecdsa

open Curve
open scoped Attest.Residue

/-! ## Verification -/

/-- The point that the verification of `r` and `s` under a key computes. -/
def noncePoint (digest r s : Scalar) (Q : CurvePoint) : CurvePoint :=
  (digest * s⁻¹) • base + (r * s⁻¹) • Q

/-- Whether a point is the one named by its `x` and the oddness of its `y`. -/
def Names (r : ℕ) (odd : Bool) (P : CurvePoint) : Prop :=
  ∃ x y h, P = .some x y h ∧ x.val = r ∧ y.isOdd = odd

/-- Whether the plain verification of `r` and `s` under a key accepts: the `x` of the computed point
is `r` modulo the order. -/
def Accepts (digest r s : Scalar) (Q : CurvePoint) : Prop :=
  ∃ x y h, noncePoint digest r s Q = .some x y h ∧ x.val % order = r.val

/-- At most one point is named. -/
theorem Names.unique {r : ℕ} {odd : Bool} {P Q : CurvePoint} (hP : Names r odd P)
    (hQ : Names r odd Q) : P = Q := by
  obtain ⟨x, y, h, rfl, hx, hodd⟩ := hP
  obtain ⟨x', y', h', rfl, hx', hodd'⟩ := hQ
  obtain rfl : x = x' := Fin.ext (hx.trans hx'.symm)
  obtain rfl := (nonsingular_iff.1 h).y_eq (nonsingular_iff.1 h') (hodd.trans hodd'.symm)
  rfl

/-- The opposite point has the same `x` and the other oddness. -/
theorem Names.neg {r : ℕ} {odd : Bool} {P : CurvePoint} (h : Names r odd P) :
    Names r (!odd) (-P) := by
  obtain ⟨x, y, hP, rfl, hx, rfl⟩ := h
  refine ⟨x, _, _, WeierstrassCurve.Affine.Point.neg_some hP, hx, ?_⟩
  rw [secp256k1_negY, Coordinate.isOdd_neg (nonsingular_iff.1 hP).y_ne_zero]

/-- What names the computed point exactly passes the plain verification. -/
theorem Accepts.of_names {digest r s : Scalar} {odd : Bool} {Q : CurvePoint}
    (h : Names r.val odd (noncePoint digest r s Q)) : Accepts digest r s Q := by
  obtain ⟨x, y, hxy, hP, hx, -⟩ := h
  exact ⟨x, y, hxy, hP, by rw [hx, Nat.mod_eq_of_lt r.isLt]⟩

/-! ## Solving for the key -/

/-- The key for which verification computes a given point. -/
def keyPoint (digest r s : Scalar) (R : CurvePoint) : CurvePoint :=
  (r⁻¹ * s) • R + (-(r⁻¹ * digest)) • base

theorem noncePoint_keyPoint {r s : Scalar} (hr : r ≠ 0) (hs : s ≠ 0) (digest : Scalar)
    (R : CurvePoint) : noncePoint digest r s (keyPoint digest r s R) = R := by
  unfold noncePoint keyPoint
  match_scalars
  · field_simp
    ring
  · field_simp

theorem keyPoint_noncePoint {r s : Scalar} (hr : r ≠ 0) (hs : s ≠ 0) (digest : Scalar)
    (Q : CurvePoint) : keyPoint digest r s (noncePoint digest r s Q) = Q := by
  unfold noncePoint keyPoint
  match_scalars
  · field_simp
    ring
  · field_simp

/-- Verification under different keys computes different points. -/
theorem noncePoint_injective {r s : Scalar} (hr : r ≠ 0) (hs : s ≠ 0) (digest : Scalar) :
    Function.Injective (noncePoint digest r s) :=
  Function.LeftInverse.injective (keyPoint_noncePoint hr hs digest)

/-- The opposite `s` gives the opposite point. -/
theorem noncePoint_neg (digest r s : Scalar) (Q : CurvePoint) :
    noncePoint digest r (-s) Q = -noncePoint digest r s Q := by
  unfold noncePoint
  rw [inv_neg]
  module

/-! ## Recovery -/

theorem PublicKey.point_injective : Function.Injective PublicKey.point := by
  rintro ⟨x, y⟩ ⟨x', y'⟩ h
  cases h
  rfl

theorem PublicKey.ofPoint?_eq_some_iff {p : Point} {key : PublicKey} :
    PublicKey.ofPoint? p = some key ↔ p = key.point := by
  cases p with
  | infinity => simp [PublicKey.ofPoint?, PublicKey.point]
  | affine x y =>
    cases key
    simp [PublicKey.ofPoint?, PublicKey.point]

theorem coordinate_ofNat?_eq_some_iff {value : ℕ} {x : Coordinate} :
    Coordinate.ofNat? value = some x ↔ x.val = value := by
  simp only [Coordinate.ofNat?, Option.dite_none_right_eq_some, Option.some.injEq]
  refine ⟨?_, ?_⟩
  · rintro ⟨_, rfl⟩
    rfl
  · rintro rfl
    exact ⟨x.isLt, rfl⟩

/-- The steps of recovery, in the group: a point is named, and the key is solved for. -/
theorem recover?_eq_some_iff_exists {digest : Scalar} {signature : Signature} {key : PublicKey} :
    recover? digest signature = some key ↔
      ∃ R, Names signature.r.val signature.odd R ∧
        Point.ofCurve (keyPoint digest signature.r signature.s R) = key.point := by
  have hsolved : ∀ R : CurvePoint,
      ((Point.ofCurve R).times (Residue.inverse signature.r * signature.s).val).add
          (generator.times (-(Residue.inverse signature.r * digest)).val) =
        Point.ofCurve (keyPoint digest signature.r signature.s R) := by
    intro R
    rw [← ofCurve_base, Point.times_val, Point.times_val, ← Point.ofCurve_add]
    rfl
  simp only [recover?, Option.bind_eq_bind, Option.bind_eq_some_iff,
    coordinate_ofNat?_eq_some_iff, Point.lift?_eq_some_iff, PublicKey.ofPoint?_eq_some_iff]
  refine ⟨?_, ?_⟩
  · rintro ⟨x, hx, _, ⟨y, hon, hodd, rfl⟩, hkey⟩
    refine ⟨.some x y (nonsingular_iff.2 hon), ⟨x, y, _, rfl, hx, hodd⟩, ?_⟩
    rw [← hsolved]
    exact hkey
  · rintro ⟨R, ⟨x, y, h, rfl, hx, hodd⟩, hkey⟩
    refine ⟨x, hx, _, ⟨y, nonsingular_iff.1 h, hodd, rfl⟩, ?_⟩
    rw [← hkey, ← hsolved]
    rfl

/-- What it takes for a signature of a digest to verify under a key. -/
structure Verifies (digest : Scalar) (signature : Signature) (Q : CurvePoint) : Prop where
  r_ne_zero : signature.r ≠ 0
  s_ne_zero : signature.s ≠ 0
  /-- the signature names the computed point -/
  names : Names signature.r.val signature.odd (noncePoint digest signature.r signature.s Q)

/-- A signature verifies under one key at most. -/
theorem Verifies.unique {digest : Scalar} {signature : Signature} {P Q : CurvePoint}
    (hP : Verifies digest signature P) (hQ : Verifies digest signature Q) : P = Q :=
  noncePoint_injective hP.r_ne_zero hP.s_ne_zero digest (hP.names.unique hQ.names)

/-- The twin of a signature verifies under the same key. -/
theorem Verifies.twin {digest : Scalar} {signature : Signature} {Q : CurvePoint}
    (h : Verifies digest signature Q) : Verifies digest signature.twin Q where
  r_ne_zero := h.r_ne_zero
  s_ne_zero := neg_ne_zero.2 h.s_ne_zero
  names := by
    rw [Signature.twin, noncePoint_neg]
    exact h.names.neg

/-- **Recovery inverts verification**: it finds a key exactly if it is the key under which the
signature verifies. -/
theorem recover?_eq_some_iff {digest : Scalar} {signature : Signature} {key : PublicKey}
    (hr : signature.r ≠ 0) (hs : signature.s ≠ 0) :
    recover? digest signature = some key ↔
      ∃ Q, Point.ofCurve Q = key.point ∧ Verifies digest signature Q := by
  rw [recover?_eq_some_iff_exists]
  refine ⟨?_, ?_⟩
  · rintro ⟨R, hnames, hkey⟩
    exact ⟨_, hkey, hr, hs, by rwa [noncePoint_keyPoint hr hs]⟩
  · rintro ⟨Q, hkey, hverifies⟩
    exact ⟨_, hverifies.names, by rwa [keyPoint_noncePoint hr hs]⟩

end Attest.Ecdsa
