import Mathlib
import Attest.Recovery
import Attest.Proofs.Ecdsa.Recovery
import Attest.Proofs.Signature

/-!
# Whom a signature names

A message and the text of a signature lead to an address, or to the reason why they do not. Here the
address is said without the computation: it is the address of the one key under which the signature
verifies (`IsSigner`).

The main statements are `publicKey_eq_ok_iff` and `signer_spec`.
-/

namespace Attest

open Curve
open scoped Attest.Residue

namespace Recovery

/-! ## The signer -/

/-- What is signed for a message, as a scalar. -/
def digestScalar (message : Bytes) : Scalar := Scalar.reduce (PersonalMessage.digest message).toNat

/-- A public key on the curve as an element of the group. -/
def keyPoint (key : Ecdsa.PublicKey) (h : OnCurve key.x key.y) : CurvePoint :=
  .some key.x key.y (nonsingular_iff.2 h)

/-- Whether a signature of a message verifies under a key, which is a point of the curve other than
infinity: the recovery byte is one of the four, both scalars are in range, and the point that
verification computes is the one that the signature names. -/
structure IsSigner (message : Bytes) (signature : Signature) (key : Ecdsa.PublicKey) : Prop where
  recoveryByte : signature.v ∈ Signature.recoveryBytes
  inRange : signature.InRange
  onCurve : OnCurve key.x key.y
  /-- the computed point has exactly `r` as its `x`, and a `y` of the oddness that the recovery byte
  tells -/
  names : Ecdsa.Names signature.r.toNat signature.namesOdd
    (Ecdsa.noncePoint (digestScalar message) signature.reduced.r signature.reduced.s
      (keyPoint key onCurve))

theorem ofCurve_keyPoint {key : Ecdsa.PublicKey} (h : OnCurve key.x key.y) :
    Point.ofCurve (keyPoint key h) = key.point := rfl

/-- A point that stands for a public key is that key. -/
theorem exists_keyPoint {key : Ecdsa.PublicKey} {Q : CurvePoint}
    (h : Point.ofCurve Q = key.point) : ∃ hon, Q = keyPoint key hon := by
  rcases Q with _ | ⟨x, y, hxy⟩
  · cases h
  · obtain ⟨x', y'⟩ := key
    cases h
    exact ⟨nonsingular_iff.1 hxy, rfl⟩

/-- Verification in scalars is what `IsSigner` says of bytes. -/
theorem isSigner_iff {message : Bytes} {signature : Signature} {key : Ecdsa.PublicKey} :
    IsSigner message signature key ↔
      signature.v ∈ Signature.recoveryBytes ∧ signature.InRange ∧
        ∃ Q, Point.ofCurve Q = key.point ∧
          Ecdsa.Verifies (digestScalar message) signature.reduced Q := by
  refine ⟨?_, ?_⟩
  · rintro ⟨hbyte, hrange, hon, hnames⟩
    obtain ⟨hr, hs⟩ := Signature.reduced_ne_zero hrange
    refine ⟨hbyte, hrange, keyPoint key hon, ofCurve_keyPoint hon, hr, hs, ?_⟩
    rw [Signature.val_reduced_r hrange]
    exact hnames
  · rintro ⟨hbyte, hrange, Q, hkey, hverifies⟩
    obtain ⟨hon, rfl⟩ := exists_keyPoint hkey
    refine ⟨hbyte, hrange, hon, ?_⟩
    rw [← Signature.val_reduced_r hrange]
    exact hverifies.names

/-- A signature of a message has one signer at most. -/
theorem IsSigner.unique {message : Bytes} {signature : Signature} {key key' : Ecdsa.PublicKey}
    (h : IsSigner message signature key) (h' : IsSigner message signature key') : key = key' := by
  obtain ⟨-, -, P, hP, hverifies⟩ := isSigner_iff.1 h
  obtain ⟨-, -, Q, hQ, hverifies'⟩ := isSigner_iff.1 h'
  rw [hverifies.unique hverifies', hQ] at hP
  exact Ecdsa.PublicKey.point_injective hP.symm

/-- Without a recovery byte that can be used, nothing else is looked at. -/
theorem publicKey_of_not_mem {signature : Signature} (h : signature.v ∉ Signature.recoveryBytes)
    (message : Bytes) :
    publicKey message signature = .error (.malformed (.unknownRecoveryByte signature.v)) := by
  rw [publicKey, Signature.oddNonce_of_not_mem h]
  rfl

/-- With a recovery byte that can be used, all depends on the scalars. -/
theorem publicKey_of_mem {signature : Signature} (h : signature.v ∈ Signature.recoveryBytes)
    (message : Bytes) :
    publicKey message signature =
      ((signature.scalars? signature.namesOdd).bind (Ecdsa.recover? (digestScalar message))).elim
        (.error .noPublicKey) .ok := by
  rw [publicKey, Signature.oddNonce_of_mem h]
  simp only [Except.mapError, bind, Except.bind]
  rcases signature.scalars? signature.namesOdd with _ | scalars
  · rfl
  · rcases hkey : Ecdsa.recover? (digestScalar message) scalars with _ | key
    · simp only [Option.bind_some, digestScalar] at hkey ⊢
      rw [hkey]
      rfl
    · simp only [Option.bind_some, digestScalar] at hkey ⊢
      rw [hkey]
      rfl

/-- **Recovery finds the signer**, and finds nobody where there is none. -/
theorem publicKey_eq_ok_iff {message : Bytes} {signature : Signature} {key : Ecdsa.PublicKey} :
    publicKey message signature = .ok key ↔ IsSigner message signature key := by
  rw [isSigner_iff]
  by_cases hbyte : signature.v ∈ Signature.recoveryBytes
  · rw [publicKey_of_mem hbyte, and_iff_right hbyte]
    by_cases hrange : signature.InRange
    · obtain ⟨hr, hs⟩ := Signature.reduced_ne_zero hrange
      rw [Signature.scalars?_of_inRange hrange, Option.bind_some, and_iff_right hrange,
        ← Ecdsa.recover?_eq_some_iff hr hs]
      rcases Ecdsa.recover? (digestScalar message) signature.reduced with _ | found
      · simp
      · simp
    · rw [Signature.scalars?_of_not_inRange hrange, Option.bind_none]
      simp [hrange]
  · rw [publicKey_of_not_mem hbyte]
    simp [hbyte]

/-- With a recovery byte that can be used, no signer means that there is no public key. -/
theorem publicKey_eq_error {message : Bytes} {signature : Signature}
    (h : signature.v ∈ Signature.recoveryBytes) (hnone : ¬∃ key, IsSigner message signature key) :
    publicKey message signature = .error .noPublicKey := by
  have hnot : ∀ key, publicKey message signature ≠ .ok key := fun key hkey =>
    hnone ⟨key, publicKey_eq_ok_iff.1 hkey⟩
  rw [publicKey_of_mem h] at hnot ⊢
  generalize (signature.scalars? signature.namesOdd).bind
    (Ecdsa.recover? (digestScalar message)) = recovered at hnot ⊢
  rcases recovered with _ | key
  · rfl
  · exact (hnot key rfl).elim

theorem signer_of_parse {text : String} {signature : Signature}
    (h : Signature.parse text = .ok signature) (message : Bytes) :
    signer message text = (publicKey message signature).map Address.ofPublicKey := by
  rw [signer, h]
  simp only [Except.mapError, bind, Except.bind]
  rcases publicKey message signature with error | key
  · rfl
  · rfl

/-- **Recovery is sound and complete, and its errors are exact.** A text that is no signature is
refused with the reason for that. Otherwise the answer is the address of the one key under which
the signature verifies, also by the plain rule; an error tells that the recovery byte cannot be
used, whatever the scalars are, or else that there is no such key. -/
theorem signer_spec (message : Bytes) (text : String) :
    (∀ cause, Signature.parse text = .error cause →
      signer message text = .error (.malformed cause)) ∧
    ∀ signature, Signature.parse text = .ok signature →
      (∀ address, signer message text = .ok address ↔
        ∃ key, IsSigner message signature key ∧ Address.ofPublicKey key = address) ∧
      (∀ key key', IsSigner message signature key → IsSigner message signature key' →
        key = key') ∧
      (∀ key (h : IsSigner message signature key),
        Ecdsa.Accepts (digestScalar message) signature.reduced.r signature.reduced.s
          (keyPoint key h.onCurve)) ∧
      (signature.v ∉ Signature.recoveryBytes →
        signer message text = .error (.malformed (.unknownRecoveryByte signature.v))) ∧
      (signature.v ∈ Signature.recoveryBytes → (¬∃ key, IsSigner message signature key) →
        signer message text = .error .noPublicKey) := by
  refine ⟨?_, ?_⟩
  · intro cause hcause
    rw [signer, hcause]
    rfl
  intro signature hparse
  rw [signer_of_parse hparse]
  refine ⟨?_, ?_, ?_, ?_, ?_⟩
  · intro address
    simp only [← publicKey_eq_ok_iff]
    rcases publicKey message signature with error | key
    · simp [Except.map]
    · simp [Except.map]
  · intro key key' h h'
    exact h.unique h'
  · intro key h
    have hnames := h.names
    rw [← Signature.val_reduced_r h.inRange] at hnames
    exact Ecdsa.Accepts.of_names hnames
  · intro hbyte
    rw [publicKey_of_not_mem hbyte]
    rfl
  · intro hbyte hnone
    rw [publicKey_eq_error hbyte hnone]
    rfl

end Recovery

end Attest
