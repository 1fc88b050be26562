import Mathlib
import Attest.Proofs.Ecdsa.Recovery

/-!
# What signing makes verifies

Signing tries one candidate for a nonce after the other. Whether the search ends is a matter of the
hash that the candidates come from; `SearchEnds` says that it does. What can be said without it is
that every signature that is made verifies under the public key, whatever candidate it was made
with, and also where it was replaced by its twin to keep `s` in the lower half.

The main statements are `isSome_sign?_iff` and `verifies_of_sign?`.
-/

namespace Attest.Ecdsa

open Curve
open scoped Attest.Residue

/-! ## The search -/

namespace NonceSource

variable {α : Type} {use? : Scalar → Option α}

theorem candidate?_ne_zero {source : NonceSource} {nonce : Scalar}
    (h : source.candidate? = some nonce) : nonce ≠ 0 :=
  (Scalar.ofNat?_eq_some_iff.1 h).2

/-- The search ends exactly if some candidate within the attempts is accepted. -/
theorem isSome_search_iff {attempts : ℕ} {source : NonceSource} :
    (search use? attempts source).isSome ↔
      ∃ i < attempts, ∃ nonce, (next^[i] source).candidate? = some nonce ∧
        (use? nonce).isSome := by
  induction attempts generalizing source with
  | zero => simp [search]
  | succ attempts ih =>
    rw [search]
    rcases hfirst : source.candidate?.bind use? with _ | result
    · -- the first candidate is of no use, so the search goes on with the others
      rw [ih]
      refine ⟨?_, ?_⟩
      · rintro ⟨i, hi, nonce, hnonce, huse⟩
        exact ⟨i + 1, Nat.succ_lt_succ hi, nonce, hnonce, huse⟩
      · rintro ⟨_ | i, hi, nonce, hnonce, huse⟩
        · rw [Function.iterate_zero_apply] at hnonce
          rw [hnonce, Option.bind_some] at hfirst
          rw [hfirst] at huse
          cases huse
        · exact ⟨i, Nat.lt_of_succ_lt_succ hi, nonce, hnonce, huse⟩
    · obtain ⟨nonce, hnonce, huse⟩ := Option.bind_eq_some_iff.1 hfirst
      simp only [Option.isSome_some, true_iff]
      exact ⟨0, Nat.succ_pos _, nonce, hnonce, by rw [huse, Option.isSome_some]⟩

/-- What the search finds was made from a scalar other than zero. -/
theorem exists_of_search {attempts : ℕ} {source : NonceSource} {result : α}
    (h : search use? attempts source = some result) :
    ∃ nonce, nonce ≠ 0 ∧ use? nonce = some result := by
  induction attempts generalizing source with
  | zero => cases h
  | succ attempts ih =>
    rw [search] at h
    rcases hfirst : source.candidate?.bind use? with _ | first
    · rw [hfirst] at h
      exact ih h
    · rw [hfirst] at h
      obtain ⟨nonce, hnonce, huse⟩ := Option.bind_eq_some_iff.1 hfirst
      exact ⟨nonce, candidate?_ne_zero hnonce, huse.trans h⟩

end NonceSource

/-! ## One nonce -/

/-- A nonce is of use if the `x` of its point is a scalar other than zero as it stands, and if `s`
does not become zero. -/
def Usable (secret digest nonce : Scalar) : Prop :=
  ∃ x y h, nonce • base = .some x y h ∧ 0 < x.val ∧ x.val < order ∧
    digest + Scalar.reduce x.val * secret ≠ 0

theorem generator_times (a : Scalar) : generator.times a = Point.ofCurve (a • base) := by
  rw [← ofCurve_base, Point.times_val]

/-- A nonce other than zero has a point other than infinity. -/
theorem exists_nonce_point {nonce : Scalar} (h : nonce ≠ 0) :
    ∃ x y hxy, nonce • base = .some x y hxy := by
  rcases hP : nonce • base with _ | ⟨x, y, hxy⟩
  · exact absurd hP (smul_ne_zero h base_ne_zero)
  · exact ⟨x, y, hxy, rfl⟩

/-- A nonce can be seen to be of use from its point alone. -/
theorem usable_of_times {secret digest nonce : Scalar} {x y : Coordinate}
    (hpoint : generator.times nonce = .affine x y) (hpos : 0 < x.val) (hlt : x.val < order)
    (hsum : digest + Scalar.reduce x.val * secret ≠ 0) : Usable secret digest nonce := by
  rw [generator_times] at hpoint
  rcases hP : nonce • base with _ | ⟨x', y', hxy⟩
  · rw [hP] at hpoint
    cases hpoint
  · rw [hP] at hpoint
    obtain ⟨rfl, rfl⟩ := Point.affine.inj hpoint
    exact ⟨x', y', hxy, hP, hpos, hlt, hsum⟩

/-- The second scalar of the signature that a nonce makes. -/
def signatureScalar (secret digest nonce r : Scalar) : Scalar := nonce⁻¹ * (digest + r * secret)

theorem signatureScalar_eq_zero_iff {secret digest nonce r : Scalar} (h : nonce ≠ 0) :
    signatureScalar secret digest nonce r = 0 ↔ digest + r * secret = 0 := by
  rw [signatureScalar, mul_eq_zero, or_iff_right (inv_ne_zero h)]

/-- Signing with one nonce, once its point is known. -/
theorem signWith?_eq_bind {secret digest nonce : Scalar} {x y : Coordinate}
    {hxy : secp256k1.Nonsingular x y} (hP : nonce • base = .some x y hxy) :
    signWith? secret digest nonce = (Scalar.ofNat? x.val).bind fun r =>
      if signatureScalar secret digest nonce r = 0 then none
      else
        let signature : Signature := ⟨r, signatureScalar secret digest nonce r, y.isOdd⟩
        some (if signature.s.isHigh then signature.twin else signature) := by
  rw [signWith?, generator_times, hP]
  rfl

/-- A nonce makes a signature exactly if it is of use. -/
theorem isSome_signWith?_iff {secret digest nonce : Scalar} (h : nonce ≠ 0) :
    (signWith? secret digest nonce).isSome ↔ Usable secret digest nonce := by
  obtain ⟨x, y, hxy, hP⟩ := exists_nonce_point h
  rw [signWith?_eq_bind hP]
  refine ⟨?_, ?_⟩
  · intro hsome
    obtain ⟨signature, hsignature⟩ := Option.isSome_iff_exists.1 hsome
    obtain ⟨r, hr, hrest⟩ := Option.bind_eq_some_iff.1 hsignature
    obtain ⟨hs, -⟩ := Option.ite_none_left_eq_some.1 hrest
    rw [signatureScalar_eq_zero_iff h] at hs
    by_cases hx : 0 < x.val ∧ x.val < order
    · rw [Scalar.ofNat?_eq_some_reduce hx] at hr
      obtain rfl := Option.some.inj hr
      exact ⟨x, y, hxy, hP, hx.1, hx.2, hs⟩
    · rw [Scalar.ofNat?_eq_none hx] at hr
      cases hr
  · rintro ⟨x', y', hxy', hP', hpos, hlt, hsum⟩
    obtain ⟨rfl, rfl⟩ := WeierstrassCurve.Affine.Point.some.inj (hP.symm.trans hP')
    rw [Scalar.ofNat?_eq_some_reduce ⟨hpos, hlt⟩, Option.bind_some,
      if_neg (mt (signatureScalar_eq_zero_iff h).1 hsum), Option.isSome_some]

/-- Verification computes the nonce point of the signature that a nonce makes. -/
theorem noncePoint_signatureScalar {secret digest nonce r : Scalar}
    (h : signatureScalar secret digest nonce r ≠ 0) :
    noncePoint digest r (signatureScalar secret digest nonce r) (secret • base) =
      nonce • base := by
  obtain ⟨hinv, hsum⟩ := mul_ne_zero_iff.1 h
  have hnonce : nonce ≠ 0 := fun hzero => hinv (by rw [hzero, inv_zero])
  rw [noncePoint, signatureScalar]
  match_scalars
  field_simp

/-- **A signature verifies** under the public key of the secret that it was made with. -/
theorem verifies_of_signWith? {secret digest nonce : Scalar} {signature : Signature}
    (hnonce : nonce ≠ 0) (h : signWith? secret digest nonce = some signature) :
    Verifies digest signature (secret • base) := by
  obtain ⟨x, y, hxy, hP⟩ := exists_nonce_point hnonce
  rw [signWith?_eq_bind hP] at h
  obtain ⟨r, hr, hsome⟩ := Option.bind_eq_some_iff.1 h
  obtain ⟨hs, hsignature⟩ := Option.ite_none_left_eq_some.1 hsome
  obtain ⟨hrx, hr_ne⟩ := Scalar.ofNat?_eq_some_iff.1 hr
  have hverifies : Verifies digest ⟨r, signatureScalar secret digest nonce r, y.isOdd⟩
      (secret • base) := by
    refine ⟨hr_ne, hs, ?_⟩
    rw [noncePoint_signatureScalar hs, hP]
    exact ⟨x, y, hxy, rfl, hrx.symm, rfl⟩
  obtain rfl := Option.some.inj hsignature
  split
  · exact hverifies.twin
  · exact hverifies

/-! ## Signing -/

/-- The search for a nonce of use ends: some candidate within the attempts is of use. -/
def SearchEnds (secret : Scalar) (digest : Octets 32) : Prop :=
  ∃ i < attempts, ∃ nonce,
    (NonceSource.next^[i] (.seeded (Octets.ofNat 32 secret) digest)).candidate? = some nonce ∧
      Usable secret (Scalar.reduce digest.toNat) nonce

/-- Signing succeeds exactly if the search for a nonce ends. -/
theorem isSome_sign?_iff {secret : Scalar} {digest : Octets 32} :
    (sign? secret digest).isSome ↔ SearchEnds secret digest := by
  rw [sign?, NonceSource.isSome_search_iff]
  refine ⟨?_, ?_⟩
  · rintro ⟨i, hi, nonce, hnonce, hsome⟩
    exact ⟨i, hi, nonce, hnonce,
      (isSome_signWith?_iff (NonceSource.candidate?_ne_zero hnonce)).1 hsome⟩
  · rintro ⟨i, hi, nonce, hnonce, husable⟩
    exact ⟨i, hi, nonce, hnonce,
      (isSome_signWith?_iff (NonceSource.candidate?_ne_zero hnonce)).2 husable⟩

/-- **What signing makes verifies** under the public key of the secret. -/
theorem verifies_of_sign? {secret : Scalar} {digest : Octets 32} {signature : Signature}
    (h : sign? secret digest = some signature) :
    Verifies (Scalar.reduce digest.toNat) signature (secret • base) := by
  obtain ⟨nonce, hnonce, hsign⟩ := NonceSource.exists_of_search h
  exact verifies_of_signWith? hnonce hsign

end Attest.Ecdsa
