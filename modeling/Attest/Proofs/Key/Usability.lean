import Mathlib
import Attest.Proofs.Key.Reading
import Attest.Proofs.Lifetime
import Attest.Proofs.Signature.Reading

/-!
# Keys are of use as a whole or not at all

Any 32 bytes make a key. If they spell a scalar other than zero, everything that is derived from the
key succeeds; otherwise everything fails, and for the same reason. What such a key signs has one
form only: the scalars are in range, the second one in its lower half, and the recovery byte is 27
or 28.

The main statements are `Ecdsa.isHigh_of_sign?`, `isCanonical_of_sign` and `usable_as_a_whole`.
-/

namespace Attest

open Curve

/-! ## The lower half -/

/-- The opposite of a scalar in the upper half is in the lower half, as the order is odd. -/
theorem Curve.Scalar.isHigh_neg {a : Scalar} (h : a.isHigh = true) : (-a).isHigh = false := by
  have hodd : order % 2 = 1 := by decide
  have hlt := a.isLt
  rw [isHigh, decide_eq_true_iff] at h
  rw [isHigh, decide_eq_false_iff_not, Fin.val_neg', Nat.mod_eq_of_lt (by omega)]
  omega

namespace Ecdsa

variable {secret digest nonce : Scalar} {signature : Signature}

theorem isHigh_of_signWith? (hnonce : nonce ≠ 0)
    (h : signWith? secret digest nonce = some signature) : signature.s.isHigh = false := by
  obtain ⟨x, y, hxy, hP⟩ := exists_nonce_point hnonce
  rw [signWith?_eq_bind hP] at h
  obtain ⟨r, -, hsome⟩ := Option.bind_eq_some_iff.1 h
  obtain ⟨-, hsignature⟩ := Option.ite_none_left_eq_some.1 hsome
  obtain rfl := Option.some.inj hsignature
  split
  case isTrue hhigh => exact Scalar.isHigh_neg hhigh
  case isFalse hhigh => exact Bool.eq_false_iff.2 hhigh

/-- **The second scalar of a signature is in the lower half.** -/
theorem isHigh_of_sign? {digest : Octets 32} (h : sign? secret digest = some signature) :
    signature.s.isHigh = false := by
  obtain ⟨nonce, hnonce, hsign⟩ := NonceSource.exists_of_search h
  exact isHigh_of_signWith? hnonce hsign

end Ecdsa

/-! ## Canonical signatures -/

namespace Signature

/-- Whether a signature has the form that signing gives it. -/
structure IsCanonical (signature : Signature) : Prop where
  r : 0 < signature.r.toNat ∧ signature.r.toNat < order
  s : 0 < signature.s.toNat ∧ signature.s.toNat < order
  low : signature.s.toNat ≤ (order - 1) / 2
  v : signature.v = 27 ∨ signature.v = 28

theorem isCanonical_ofScalars {signature : Ecdsa.Signature} (hr : signature.r ≠ 0)
    (hs : signature.s ≠ 0) (hlow : signature.s.isHigh = false) :
    (ofScalars signature).IsCanonical := by
  obtain ⟨hr', hs'⟩ := inRange_ofScalars hr hs
  refine ⟨hr', hs', ?_, ?_⟩
  · rw [Scalar.isHigh, decide_eq_false_iff_not, not_lt] at hlow
    rwa [ofScalars, toNat_ofNat_scalar]
  · rw [v_ofScalars]
    cases signature.odd
    · exact .inl rfl
    · exact .inr rfl

/-- Whether a text is `0x` and 130 lower-case digits, and is read as the signature. -/
structure IsWritten (signature : Signature) (text : String) : Prop where
  length : text.length = 132
  digits : ∃ digits, text.toList = '0' :: 'x' :: digits ∧ ∀ c ∈ digits, Hex.isLowerDigit c
  parse : parse text = .ok signature

theorem isWritten_hex (signature : Signature) : IsWritten signature signature.hex where
  length := by
    rw [← String.length_toList, hex, String.toList_ofList, List.length_cons, List.length_cons,
      Hex.length_encode, length_toBytes]
  digits := ⟨Hex.encode signature.toBytes, String.toList_ofList,
    fun _ => Hex.isLowerDigit_of_mem_encode⟩
  parse := parse_hex signature

end Signature

/-! ## Keys -/

namespace Key

variable {key : Key} {message : Bytes} {signature : Signature}

theorem sign_of_not_isUsable (h : ¬key.IsUsable) (message : Bytes) :
    key.sign message = .error .notScalar := by
  rw [sign, scalar_of_not_isUsable h]
  rfl

/-- What a key signs is made of the scalars of a signature. -/
theorem exists_of_sign (h : key.sign message = .ok signature) :
    ∃ scalars, Ecdsa.sign? key.secretScalar (PersonalMessage.digest message) = some scalars ∧
      signature = Signature.ofScalars scalars := by
  by_cases husable : key.IsUsable
  · rw [sign, scalar_eq husable] at h
    -- the step is taken by rewriting, since a comparison by reduction would run the search
    replace h := (pure_bind _ _).symm.trans h
    rcases hscalars : Ecdsa.sign? key.secretScalar (PersonalMessage.digest message) with _ | scalars
    · rw [hscalars] at h
      cases h
    · rw [hscalars] at h
      exact ⟨scalars, rfl, (Except.ok.inj h).symm⟩
  · rw [sign_of_not_isUsable husable] at h
    cases h

/-- **What a key signs is canonical.** -/
theorem isCanonical_of_sign (h : key.sign message = .ok signature) : signature.IsCanonical := by
  obtain ⟨scalars, hscalars, rfl⟩ := exists_of_sign h
  have hverifies := Ecdsa.verifies_of_sign? hscalars
  exact Signature.isCanonical_ofScalars hverifies.r_ne_zero hverifies.s_ne_zero
    (Ecdsa.isHigh_of_sign? hscalars)

namespace Lifetime

/-- Whether all that is derived from a key fails, since its secret is no scalar. -/
structure Refuses (key : Key) : Prop where
  publicKey : given key .publicKey = .publicKey (.error .notScalar)
  address : given key .address = .address (.error .notScalar)
  checksummed : given key .checksummed = .text (.error .notScalar)
  sign : ∀ message, given key (.sign message) = .signature (.error .notScalar)
  signHex : ∀ message, given key (.signHex message) = .text (.error .notScalar)
  record : ∀ message, given key (.record message) = .record (.error .notScalar)

/-- **A key whose secret is no scalar other than zero refuses everything.** -/
theorem refuses_of_not_isUsable (h : ¬key.IsUsable) : Refuses key where
  publicKey := by
    rw [given_publicKey, Key.publicKey, scalar_of_not_isUsable h]
    rfl
  address := by rw [given_address, address_of_not_isUsable h]
  checksummed := by
    rw [given_checksummed, address_of_not_isUsable h]
    rfl
  sign message := by rw [given_sign, sign_of_not_isUsable h]
  signHex message := by rw [given_signHex, signHex_of_not_isUsable h]
  record message := by
    rw [given_record, Record.sign, signHex_of_not_isUsable h]
    rfl

end Lifetime

theorem ofBytes_of_length_ne {bytes : Bytes} (h : bytes.length ≠ 32) :
    ofBytes bytes = .error (.wrongLength bytes.length) := by
  rw [ofBytes, Octets.ofBytes?_eq_none_iff.2 h]

open Lifetime in
/-- **A key is of use as a whole or not at all.** Any 32 bytes make a key, and no other number of
bytes does. If the number that they spell is above zero and below the order, all that is derived
from the key succeeds, signing for the messages that the search for a nonce ends for. Otherwise all
of it fails for the reason that the secret is no scalar. What is signed is canonical; it is written
as `0x` and 130 lower-case digits, and these are read as the signature. -/
theorem usable_as_a_whole (octets : Octets 32) :
    ofBytes octets.toBytes = .ok ⟨octets, .live⟩ ∧
    (∀ bytes : Bytes, bytes.length ≠ 32 → ofBytes bytes = .error (.wrongLength bytes.length)) ∧
    (0 < octets.toNat ∧ octets.toNat < order → ∃ own, Works ⟨octets, .live⟩ own) ∧
    (¬(0 < octets.toNat ∧ octets.toNat < order) → Refuses ⟨octets, .live⟩) ∧
    ∀ message signature,
      given ⟨octets, .live⟩ (.sign message) = .signature (.ok signature) →
        signature.IsCanonical ∧
        ∃ text, given ⟨octets, .live⟩ (.signHex message) = .text (.ok text) ∧
          text = signature.hex ∧ signature.IsWritten text := by
  refine ⟨ofBytes_toBytes octets, fun bytes => ofBytes_of_length_ne, ?_, ?_, ?_⟩
  · intro husable
    exact exists_works husable
  · intro husable
    exact refuses_of_not_isUsable husable
  · intro message signature h
    have hsign : sign ⟨octets, .live⟩ message = .ok signature := Answer.signature.inj h
    refine ⟨isCanonical_of_sign hsign, signature.hex, ?_, rfl, signature.isWritten_hex⟩
    rw [given_signHex, signHex_of_sign hsign]

open Lifetime in
/-- A key that signs, where the first candidate for the nonce is of use. -/
theorem usable_as_a_whole_worn :
    (0 < worn.secret.toNat ∧ worn.secret.toNat < order) ∧
      SearchEnds ⟨worn.secret, .live⟩ (Text.bytes "Some data") ∧
      ∃ signature,
        given ⟨worn.secret, .live⟩ (.sign (Text.bytes "Some data")) = .signature (.ok signature) ∧
        signature.IsCanonical := by
  obtain ⟨-, -, hworks, -, hcanonical⟩ := usable_as_a_whole worn.secret
  obtain ⟨own, hown⟩ := hworks isUsable_worn
  obtain ⟨signature, hsign, -⟩ := hown.signs _ searchEnds_worn
  exact ⟨isUsable_worn, searchEnds_worn, signature, hsign, (hcanonical _ _ hsign).1⟩

end Key

end Attest
