import Mathlib
import Attest.Proofs.PersonalMessage
import Attest.Proofs.Recovery.Twins

/-!
# Signatures bind a digest

One signature can be read as a signature of any message: as a rule it then names somebody. Whom it
names changes with the digest, and with nothing else about the message. For a fixed key the point
that verification computes tells the digest, and the signature fixes the point; so two messages lead
to the same key exactly if their digests are the same scalar.

The main statements are `Ecdsa.Verifies.eq_iff` and `Recovery.signer_binds_digest`.
-/

namespace Attest

open Curve
open scoped Attest.Residue

/-! ## Among points -/

namespace Ecdsa

/-- Verification of different digests under the same key computes different points. -/
theorem noncePoint_digest_injective {s : Scalar} (hs : s ≠ 0) (r : Scalar) (Q : CurvePoint) :
    Function.Injective fun digest => noncePoint digest r s Q := by
  intro digest digest' h
  have hmultiple : (digest * s⁻¹) • base = (digest' * s⁻¹) • base := add_right_cancel h
  exact mul_right_cancel₀ (inv_ne_zero hs) (smul_left_injective Scalar base_ne_zero hmultiple)

/-- **A signature verifies for two digests under the same key** exactly if they are the same. -/
theorem Verifies.eq_iff {digest digest' : Scalar} {signature : Signature} {P Q : CurvePoint}
    (hP : Verifies digest signature P) (hQ : Verifies digest' signature Q) :
    P = Q ↔ digest = digest' := by
  constructor
  · rintro rfl
    exact noncePoint_digest_injective hP.s_ne_zero _ P (hP.names.unique hQ.names)
  · rintro rfl
    exact hP.unique hQ

end Ecdsa

/-! ## Among messages -/

namespace Recovery

variable {message message' : Bytes} {signature : Signature} {key key' : Ecdsa.PublicKey}

/-- What is signed for two messages is the same scalar if the digests are the same number modulo the
order. -/
theorem digestScalar_eq_iff : digestScalar message = digestScalar message' ↔
    (PersonalMessage.digest message).toNat ≡ (PersonalMessage.digest message').toNat [MOD order] :=
  Fin.ext_iff

/-- **A signature leads two messages to the same key** exactly if the digests are the same number
modulo the order. -/
theorem IsSigner.eq_iff (h : IsSigner message signature key)
    (h' : IsSigner message' signature key') : key = key' ↔
      (PersonalMessage.digest message).toNat ≡
        (PersonalMessage.digest message').toNat [MOD order] := by
  obtain ⟨-, -, P, hP, hverifies⟩ := isSigner_iff.1 h
  obtain ⟨-, -, Q, hQ, hverifies'⟩ := isSigner_iff.1 h'
  rw [← digestScalar_eq_iff, ← hverifies.eq_iff hverifies']
  constructor
  · rintro rfl
    exact Point.ofCurve_injective (hP.trans hQ.symm)
  · rintro rfl
    exact Ecdsa.PublicKey.point_injective (hP.symm.trans hQ)

/-- An address that is recovered is that of a key that is recovered. -/
theorem exists_publicKey_of_signer {text : String} {address : Address}
    (h : signer message text = .ok address) :
    ∃ signature key, Signature.parse text = .ok signature ∧
      publicKey message signature = .ok key ∧ Address.ofPublicKey key = address := by
  cases hparse : Signature.parse text with
  | error cause =>
    rw [signer, hparse] at h
    cases h
  | ok signature =>
    rw [signer_of_parse hparse] at h
    cases hkey : publicKey message signature with
    | error error =>
      rw [hkey] at h
      cases h
    | ok key =>
      rw [hkey] at h
      exact ⟨signature, key, rfl, hkey, Except.ok.inj h⟩

/-- **A signature binds its signer to the digest.** Where a signature names somebody for each of two
messages, the two public keys are the same exactly if the digests of the messages are the same
number modulo the order. So if the messages are different and still lead to the same address, then
either their frames are different and have digests that are the same modulo the order, or two points
of the curve have that address. -/
theorem signer_binds_digest (message message' : Bytes) (text : String) (address address' : Address)
    (h : signer message text = .ok address) (h' : signer message' text = .ok address') :
    ∃ signature key key', Signature.parse text = .ok signature ∧
      publicKey message signature = .ok key ∧ Address.ofPublicKey key = address ∧
      publicKey message' signature = .ok key' ∧ Address.ofPublicKey key' = address' ∧
      (key = key' ↔ (PersonalMessage.digest message).toNat ≡
        (PersonalMessage.digest message').toNat [MOD order]) ∧
      (message ≠ message' → address = address' →
        (PersonalMessage.frame message ≠ PersonalMessage.frame message' ∧
          (keccak256 (PersonalMessage.frame message)).toNat ≡
            (keccak256 (PersonalMessage.frame message')).toNat [MOD order]) ∨
        (key ≠ key' ∧ OnCurve key.x key.y ∧ OnCurve key'.x key'.y ∧
          Address.ofPublicKey key = Address.ofPublicKey key')) := by
  obtain ⟨signature, key, hparse, hkey, rfl⟩ := exists_publicKey_of_signer h
  obtain ⟨other, key', hparse', hkey', rfl⟩ := exists_publicKey_of_signer h'
  obtain rfl := Except.ok.inj (hparse.symm.trans hparse')
  have hsigner := publicKey_eq_ok_iff.1 hkey
  have hsigner' := publicKey_eq_ok_iff.1 hkey'
  have hkeys := hsigner.eq_iff hsigner'
  refine ⟨signature, key, key', hparse, hkey, rfl, hkey', rfl, hkeys, ?_⟩
  intro hne haddress
  by_cases hsame : key = key'
  · exact .inl ⟨PersonalMessage.frame_injective.ne hne, hkeys.1 hsame⟩
  · exact .inr ⟨hsame, hsigner.onCurve, hsigner'.onCurve, haddress⟩

/-- With one letter in lower case the same signature names somebody else, by another key. -/
theorem signer_binds_digest_small :
    signer (Text.bytes "Some data") small.hex =
        .ok ⟨Octets.ofNat 20 0x39aae19fbfc07c44810fe18adfcd7be08847c7b1⟩ ∧
      signer (Text.bytes "some data") small.hex =
        .ok ⟨Octets.ofNat 20 0x4422577b50cda8fc2c32d4aa7ca96af40695c791⟩ ∧
      ∃ key key', publicKey (Text.bytes "Some data") small = .ok key ∧
        publicKey (Text.bytes "some data") small = .ok key' ∧ key ≠ key' := by
  have h : signer (Text.bytes "Some data") small.hex =
      .ok ⟨Octets.ofNat 20 0x39aae19fbfc07c44810fe18adfcd7be08847c7b1⟩ := by decide +kernel
  have h' : signer (Text.bytes "some data") small.hex =
      .ok ⟨Octets.ofNat 20 0x4422577b50cda8fc2c32d4aa7ca96af40695c791⟩ := by decide +kernel
  obtain ⟨signature, key, key', hparse, hkey, -, hkey', -, hkeys, -⟩ :=
    signer_binds_digest (Text.bytes "Some data") (Text.bytes "some data") small.hex _ _ h h'
  obtain rfl := Except.ok.inj ((Signature.parse_hex small).symm.trans hparse)
  have hdigests : ¬(PersonalMessage.digest (Text.bytes "Some data")).toNat ≡
      (PersonalMessage.digest (Text.bytes "some data")).toNat [MOD order] := by decide +kernel
  exact ⟨h, h', key, key', hkey, hkey', mt hkeys.1 hdigests⟩

end Recovery

end Attest
