import Mathlib
import Attest.Record
import Attest.Proofs.Checksum
import Attest.Proofs.Ecdsa.Signing
import Attest.Proofs.Recovery

/-!
# Signatures lead back to their key

What a key signs names the address of the key, and nobody else. This goes through all that lies
between the two: the frame of the message, the nonce, the lower half of `s`, the recovery byte, the
written digits and back.

The main statement is `Key.recovers_own_address`.
-/

namespace Attest

open Curve
open scoped Attest.Residue

/-! ## Claims -/

namespace Address

theorem not_isBlank_digits (address : Address) : ∀ c ∈ address.digits, ¬Text.isBlank c :=
  fun _ hc => Hex.not_isBlank_of_isLowerDigit (Hex.isLowerDigit_of_mem_encode hc)

/-- A claim in the form of an address is not changed by trimming. -/
theorem trim_marked {digits : List Char} (h : ∀ c ∈ digits, ¬Text.isBlank c) :
    Text.trim ('0' :: 'x' :: digits) = '0' :: 'x' :: digits := by
  refine Text.trim_eq_self ?_
  rw [List.forall_mem_cons, List.forall_mem_cons]
  exact ⟨by decide, by decide, h⟩

end Address

namespace Recovery

/-- The lower-case text of an address names it. -/
theorem names_lowercased (address : Address) : names address.lowercased address := by
  rw [names, Address.lowercased, String.toList_ofList, Address.trim_marked
    address.not_isBlank_digits]
  exact decide_eq_true rfl

/-- The checksummed text of an address names it. -/
theorem names_checksummed (address : Address) : names address.checksummed address := by
  rw [names, Address.lowercased, Address.checksummed, String.toList_ofList, String.toList_ofList,
    Address.trim_marked (Checksum.not_isBlank_casing address.not_isBlank_digits)]
  refine decide_eq_true ?_
  have hdigits := Checksum.lower_casing address.digits
  simp only [Text.lower, List.map_cons] at hdigits ⊢
  rw [hdigits]

end Recovery

/-! ## Keys -/

namespace Key

/-- The secret of a key as a scalar, whether or not it can be used as one. -/
def secretScalar (key : Key) : Scalar := Scalar.reduce key.secret.toNat

/-- Whether the secret is a scalar other than zero as it stands. -/
def IsUsable (key : Key) : Prop := 0 < key.secret.toNat ∧ key.secret.toNat < order

variable {key : Key}

theorem scalar_eq (h : key.IsUsable) : key.scalar = .ok key.secretScalar := by
  rw [scalar, Scalar.ofNat?_eq_some_reduce h]
  rfl

theorem scalar_of_not_isUsable (h : ¬key.IsUsable) : key.scalar = .error .notScalar := by
  rw [scalar, Scalar.ofNat?_eq_none h]

/-- A key that cannot be used has no address. -/
theorem address_of_not_isUsable (h : ¬key.IsUsable) : key.address = .error .notScalar := by
  rw [address, publicKey, scalar_of_not_isUsable h]
  rfl

/-- A key that cannot be used signs nothing. -/
theorem signHex_of_not_isUsable (h : ¬key.IsUsable) (message : Bytes) :
    key.signHex message = .error .notScalar := by
  rw [signHex, sign, scalar_of_not_isUsable h]
  rfl

theorem secretScalar_ne_zero (h : key.IsUsable) : key.secretScalar ≠ 0 :=
  (Scalar.ofNat?_eq_some_iff.1 (Scalar.ofNat?_eq_some_reduce h)).2

/-- A key that can be used has a public key, the multiple of the generator by its secret. -/
theorem exists_publicKey (h : key.IsUsable) :
    ∃ publicKey, key.publicKey = .ok publicKey ∧
      Point.ofCurve (key.secretScalar • base) = publicKey.point := by
  obtain ⟨x, y, hxy, hP⟩ := Ecdsa.exists_nonce_point (secretScalar_ne_zero h)
  refine ⟨⟨x, y⟩, ?_, by rw [hP]; rfl⟩
  rw [publicKey, scalar_eq h]
  simp only [bind, Except.bind, Ecdsa.PublicKey.ofSecret?, Ecdsa.generator_times, hP]
  rfl

theorem exists_address (h : key.IsUsable) : ∃ address, key.address = .ok address := by
  obtain ⟨publicKey, hpublic, -⟩ := exists_publicKey h
  refine ⟨Address.ofPublicKey publicKey, ?_⟩
  rw [address, hpublic]
  rfl

/-- The search for a nonce ends for this key and message. -/
def SearchEnds (key : Key) (message : Bytes) : Prop :=
  Ecdsa.SearchEnds key.secretScalar (PersonalMessage.digest message)

/-- A key that can be used signs every message that the search for a nonce ends for, and what it
makes verifies. -/
theorem exists_signature {message : Bytes} (h : key.IsUsable) (hends : key.SearchEnds message) :
    ∃ signature, key.sign message = .ok (Signature.ofScalars signature) ∧
      Ecdsa.Verifies (Recovery.digestScalar message) signature (key.secretScalar • base) := by
  obtain ⟨signature, hsignature⟩ := Option.isSome_iff_exists.1 (Ecdsa.isSome_sign?_iff.2 hends)
  refine ⟨signature, ?_, Ecdsa.verifies_of_sign? hsignature⟩
  rw [sign, scalar_eq h]
  -- the two steps are taken by rewriting, since a comparison by reduction would run the search
  refine (pure_bind _ _).trans ?_
  rw [hsignature]

/-- The signer of what a key signs is its public key. -/
theorem isSigner_of_verifies {message : Bytes} {signature : Ecdsa.Signature}
    {publicKey : Ecdsa.PublicKey} {Q : CurvePoint} (hkey : Point.ofCurve Q = publicKey.point)
    (h : Ecdsa.Verifies (Recovery.digestScalar message) signature Q) :
    Recovery.IsSigner message (Signature.ofScalars signature) publicKey := by
  rw [Recovery.isSigner_iff, Signature.reduced_ofScalars]
  exact ⟨Signature.recoveryByte_ofScalars signature,
    Signature.inRange_ofScalars h.r_ne_zero h.s_ne_zero, Q, hkey, h⟩

/-- What is signed is written as such. -/
theorem signHex_of_sign {message : Bytes} {signature : Signature}
    (h : key.sign message = .ok signature) : key.signHex message = .ok signature.hex := by
  rw [signHex, h]
  rfl

/-- What a key signs leads back to the address of the key. -/
theorem exists_signHex {message : Bytes} (h : key.IsUsable) (hends : key.SearchEnds message) :
    ∃ address text, key.address = .ok address ∧ key.signHex message = .ok text ∧
      Recovery.signer message text = .ok address := by
  obtain ⟨publicKey, hpublic, hpoint⟩ := exists_publicKey h
  obtain ⟨signature, hsign, hverifies⟩ := exists_signature h hends
  have hrecovered := Recovery.publicKey_eq_ok_iff.2 (isSigner_of_verifies hpoint hverifies)
  refine ⟨Address.ofPublicKey publicKey, (Signature.ofScalars signature).hex, ?_,
    signHex_of_sign hsign, ?_⟩
  · rw [address, hpublic]
    rfl
  · rw [Recovery.signer_of_parse (Signature.parse_hex _), hrecovered]
    rfl

/-- **What a key signs leads back to the key.** For a key that can be used, erased or not, and any
message, the signature names the address of the key and confirms both written forms of it; and a
text that is signed as a record gives a record that verifies. -/
theorem recovers_own_address (key : Key) (message : Bytes) (husable : key.IsUsable)
    (hends : key.SearchEnds message) :
    ∃ address text, key.address = .ok address ∧ key.signHex message = .ok text ∧
      Recovery.signer message text = .ok address ∧
      Recovery.signer? message text = some address ∧
      Recovery.confirms address.lowercased message text = true ∧
      Recovery.confirms address.checksummed message text = true ∧
      ∀ words : String, Text.bytes words = message →
        Record.sign key words = .ok ⟨address.lowercased, words, text, "2"⟩ ∧
        Record.verify ⟨address.lowercased, words, text, "2"⟩ =
          .confirmed address.lowercased := by
  obtain ⟨address, text, haddress, htext, hsigner⟩ := exists_signHex husable hends
  have hsigner? : Recovery.signer? message text = some address := by
    rw [Recovery.signer?, hsigner]
    rfl
  refine ⟨address, text, haddress, htext, hsigner, hsigner?, ?_, ?_, ?_⟩
  · rw [Recovery.confirms, hsigner?]
    exact Recovery.names_lowercased address
  · rw [Recovery.confirms, hsigner?]
    exact Recovery.names_checksummed address
  · rintro words rfl
    refine ⟨?_, ?_⟩
    · rw [Record.sign, htext, haddress]
      rfl
    · rw [Record.verify, hsigner]
      exact if_pos (Recovery.names_lowercased address)

/-- An erased key that is left with a secret of use. -/
def worn : Key :=
  ⟨Octets.ofNat 32 0x4c0883a69102937d6231471b5dbb6204fe5129617082792ae468d01a3f362318, .erased⟩

theorem isUsable_worn : worn.IsUsable := by
  rw [IsUsable]
  decide +kernel

theorem searchEnds_worn : worn.SearchEnds (Text.bytes "Some data") := by
  -- the first candidate is of use
  refine ⟨0, by decide,
    81980274290445717487498422271246866169616505092571985715574642761946079003424,
    by rw [Function.iterate_zero_apply]; decide +kernel, ?_⟩
  exact Ecdsa.usable_of_times
    (x := 83713930994764734002432606962255364472443135907807238282514898577139886061053)
    (y := 77981202510867947092522837259824887745356883324860636310781315752434118211391)
    (by decide +kernel) (by decide +kernel) (by decide +kernel) (by decide +kernel)

theorem recovers_own_address_worn :
    worn.IsUsable ∧ worn.SearchEnds (Text.bytes "Some data") ∧
      ∃ address text, worn.address = .ok address ∧
        worn.signHex (Text.bytes "Some data") = .ok text ∧
        Recovery.signer (Text.bytes "Some data") text = .ok address := by
  obtain ⟨address, text, haddress, htext, hsigner, -⟩ :=
    recovers_own_address worn (Text.bytes "Some data") isUsable_worn searchEnds_worn
  exact ⟨isUsable_worn, searchEnds_worn, address, text, haddress, htext, hsigner⟩

end Key

end Attest
