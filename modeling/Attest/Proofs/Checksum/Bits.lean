import Mathlib
import Attest.Proofs.Address
import Attest.Proofs.Text.Utf8

/-!
# Checksum casing by the bits of the digest

Casing looks at the half bytes of a digest one by one. The standard speaks of the digest as one
number instead: the letter at position `i` of an address is in upper case if bit `255 - 4 i` of the
number is set. The two agree, since that bit is the top bit of the half byte at that position.

The main statements are `Bytes.testBit_toNat`, `Checksum.eight_le_halfByte_iff` and
`Address.checksummed_by_bits`.
-/

namespace Attest

/-! ## Bits of bytes -/

/-- **The bits of a number are those of its bytes**, the last byte being the lowest. -/
theorem Bytes.testBit_toNat {bytes : Bytes} {i j : ℕ} (hi : i < bytes.length) (hj : j < 8) :
    (toNat bytes).testBit (8 * (bytes.length - 1 - i) + j) = bytes[i].toNat.testBit j := by
  induction bytes using List.reverseRecOn with
  | nil => cases hi
  | append_singleton bytes last ih =>
    have hlast : last.toNat < 2 ^ 8 := last.toNat_lt
    have hnumber : toNat (bytes ++ [last]) = 2 ^ 8 * toNat bytes + last.toNat := by
      rw [toNat_concat, Nat.mul_comm]
      rfl
    rw [hnumber, Nat.testBit_two_pow_mul_add _ hlast]
    rw [List.length_append, List.length_singleton] at hi ⊢
    by_cases hfront : i < bytes.length
    · have hbit : 8 * (bytes.length + 1 - 1 - i) + j - 8 = 8 * (bytes.length - 1 - i) + j := by
        omega
      rw [if_neg (by omega), hbit, ih hfront, List.getElem_append_left hfront]
    · have hposition : i = bytes.length := by omega
      have hbit : 8 * (bytes.length + 1 - 1 - i) + j = j := by omega
      subst hposition
      rw [hbit, if_pos hj, List.getElem_concat_length rfl]

theorem Octets.testBit_toNat {n i j : ℕ} (octets : Octets n) (hi : i < n) (hj : j < 8) :
    octets.toNat.testBit (8 * (n - 1 - i) + j) = octets[i].toNat.testBit j := by
  have hlength : i < octets.toBytes.length := by rwa [length_toBytes]
  have hbit := Bytes.testBit_toNat hlength hj
  rwa [length_toBytes, getElem_toBytes _ hlength hi] at hbit

/-- Characters of ASCII are hashed as their numbers. -/
theorem Text.utf8_eq_map {chars : List Char} (h : ∀ c ∈ chars, c.toNat < 128) :
    utf8 chars = chars.map fun c => UInt8.ofNat c.toNat := by
  induction chars with
  | nil => rfl
  | cons c chars ih =>
    obtain ⟨hc, hchars⟩ := List.forall_mem_cons.1 h
    rw [utf8_cons, utf8EncodeChar_of_lt hc, ih hchars]
    rfl

namespace Checksum

/-! ## Half bytes -/

/-- The high half of a byte is eight or more exactly if bit 7 is set. -/
theorem eight_le_shiftRight_iff (byte : UInt8) :
    (8 : UInt8) ≤ byte >>> 4 ↔ byte.toNat.testBit 7 = true := by
  have hlt := byte.toNat_lt
  rw [UInt8.le_iff_toNat_le, UInt8.toNat_shiftRight, Nat.testBit_eq_decide_div_mod_eq,
    decide_eq_true_iff, Nat.shiftRight_eq_div_pow]
  change 8 ≤ byte.toNat / 2 ^ 4 ↔ _
  omega

/-- The low half of a byte is eight or more exactly if bit 3 is set. -/
theorem eight_le_and_iff (byte : UInt8) :
    (8 : UInt8) ≤ byte &&& 0x0f ↔ byte.toNat.testBit 3 = true := by
  rw [UInt8.le_iff_toNat_le, UInt8.toNat_and, Nat.testBit_eq_decide_div_mod_eq,
    decide_eq_true_iff]
  change 8 ≤ byte.toNat &&& (2 ^ 4 - 1) ↔ _
  rw [Nat.and_two_pow_sub_one_eq_mod]
  omega

/-- **The half byte at a position is eight or more** exactly if its top bit in the digest is set;
positions beyond the digest start over. -/
theorem eight_le_halfByte_iff (digest : Octets 32) (position : ℕ) :
    8 ≤ halfByte digest position ↔
      digest.toNat.testBit (255 - 4 * (position % 64)) = true := by
  have hbyte : position / 2 % 32 < 32 := Nat.mod_lt _ (by decide)
  rw [halfByte]
  by_cases heven : position % 2 = 0
  · have hbit : 255 - 4 * (position % 64) = 8 * (32 - 1 - position / 2 % 32) + 7 := by omega
    rw [if_pos heven, eight_le_shiftRight_iff, hbit, Octets.testBit_toNat digest hbyte (by decide)]
  · have hbit : 255 - 4 * (position % 64) = 8 * (32 - 1 - position / 2 % 32) + 3 := by omega
    rw [if_neg heven, eight_le_and_iff, hbit, Octets.testBit_toNat digest hbyte (by decide)]

/-- Casing a character by the bit of the digest that belongs to its position. -/
theorem recase_eq_ite (digest : Octets 32) (position : ℕ) (c : Char) :
    recase digest position c =
      if c.isAlpha ∧ digest.toNat.testBit (255 - 4 * (position % 64)) then c.toUpper else c := by
  rw [recase]
  refine if_congr ?_ rfl rfl
  rw [Bool.and_eq_true, decide_eq_true_iff, eight_le_halfByte_iff]

end Checksum

/-! ## Addresses -/

namespace Address

/-- The digest of the lower-case digits, each taken as its number in ASCII, as one number. -/
def checksumNumber (address : Address) : ℕ :=
  (keccak256 (address.digits.map fun c => UInt8.ofNat c.toNat)).toNat

variable {address : Address}

theorem utf8_digits (address : Address) :
    Text.utf8 address.digits = address.digits.map fun c => UInt8.ofNat c.toNat :=
  Text.utf8_eq_map fun _ hc =>
    Hex.lt_of_isDigit (Hex.isDigit_of_isLowerDigit (Hex.isLowerDigit_of_mem_encode hc))

/-- The digit at a position of the checksummed form. -/
theorem getElem?_casing_digits {i : ℕ} {c : Char} (h : address.digits[i]? = some c) :
    (Checksum.casing address.digits)[i]? =
      some (if c.isAlpha ∧ address.checksumNumber.testBit (255 - 4 * i) then c.toUpper else c) := by
  have hi : i < 64 := by
    have hlength := (List.getElem?_eq_some_iff.1 h).1
    rw [length_digits] at hlength
    omega
  rw [Checksum.getElem?_casing, h, Option.map_some, Checksum.recase_eq_ite, Nat.mod_eq_of_lt hi,
    utf8_digits]
  rfl

/-- Every text of the digits has the checksummed form of the address as its own. -/
theorem ofText_of_lower_eq {text : String} {digits : List Char}
    (htext : Text.Unmarked text.toList digits) (h : Text.lower digits = address.digits) :
    Checksum.ofText text = address.checksummed := by
  rw [Checksum.ofText_of_unmarked htext, h]
  rfl

theorem ofText_of_accepted {text : String}
    (h : text = address.lowercased ∨ text = address.checksummed) :
    Checksum.ofText text = address.checksummed := by
  obtain ⟨digits, htext, hdigits⟩ := exists_of_accepted h
  refine ofText_of_lower_eq ?_ hdigits
  rw [htext]
  exact .marked digits

/-- **The casing of an address is that of the standard, by every route.** The checksummed form is
`0x` and 40 digits. Each is in upper case if it is a letter and its bit is set in the digest of the
lower-case digits, counted down from bit 255 in steps of four, and in lower case otherwise. The
digits in any casing have this form as their checksummed form, with `0x` in front or without; so the
lower-case and the checksummed form of the address have it too. -/
theorem checksummed_by_bits (address : Address) :
    (∃ cased, address.checksummed.toList = '0' :: 'x' :: cased ∧
      address.digits.length = 40 ∧ cased.length = 40 ∧
      ∀ (i : ℕ) (c : Char), address.digits[i]? = some c → cased[i]? =
        some (if c.isAlpha ∧ address.checksumNumber.testBit (255 - 4 * i) then c.toUpper
          else c)) ∧
    (∀ digits, Text.lower digits = address.digits →
      Checksum.ofText (String.ofList digits) = address.checksummed ∧
      Checksum.ofText (String.ofList ('0' :: 'x' :: digits)) = address.checksummed) ∧
    Checksum.ofText address.lowercased = address.checksummed ∧
    Checksum.ofText address.checksummed = address.checksummed := by
  refine ⟨⟨Checksum.casing address.digits, ?_, length_digits address, ?_,
    fun i c => getElem?_casing_digits⟩, ?_, ofText_of_accepted (.inl rfl),
    ofText_of_accepted (.inr rfl)⟩
  · rw [checksummed, String.toList_ofList]
  · rw [Checksum.casing, List.length_mapIdx, length_digits]
  · intro digits h
    refine ⟨ofText_of_lower_eq ?_ h, ofText_of_lower_eq ?_ h⟩
    · rw [String.toList_ofList]
      exact Hex.unmarked_of_isDigit (isDigit_of_lower_eq h)
    · rw [String.toList_ofList]
      exact .marked digits

/-- Digits in upper case, without the marker. -/
example : Checksum.ofText "5AAEB6053F3E94C9B9A09F33669435E7EF1BEAED" =
    "0x5aAeb6053F3E94C9b9A09f33669435E7Ef1BeAed" := by
  decide +kernel

end Address

end Attest
