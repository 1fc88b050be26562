import Mathlib
import Attest.Proofs.Key.Reading

/-!
# Keys that can be used, as texts

A text is of use as a key if it is 64 digits in lower case and the number that these digits spell
lies above zero and below the order. Whether this is so can be seen from the text alone
(`SpellsScalar`): the number that the digits spell is the one that their bytes spell.

The main statements are `Hex.number_of_decode?` and `Key.spellsScalar_iff`.
-/

namespace Attest

open Curve

namespace Hex

/-- The number that some digits spell, the first digit being the most significant. -/
def number (chars : List Char) : ℕ :=
  chars.foldl (fun total c => total * 16 + (value? c).getD 0) 0

/-- Two digits count as much as the byte that they are read as. -/
theorem foldl_of_decode? {chars : List Char} {bytes : Bytes} (h : decode? chars = some bytes)
    (total : ℕ) : chars.foldl (fun total c => total * 16 + (value? c).getD 0) total =
      bytes.foldl (fun total byte => total * 256 + byte.toNat) total := by
  -- along the decoder, so by two digits at a time
  induction chars using decode?.induct generalizing bytes total with
  | case1 =>
    obtain rfl := Option.some.inj h
    rfl
  | case2 c => cases h
  | case3 high low rest ih =>
    simp only [decode?, bind, Option.bind_eq_some_iff, pure, Option.some.injEq] at h
    obtain ⟨i, hi, j, hj, tail, htail, rfl⟩ := h
    obtain ⟨hi16, -⟩ := digitChar_of_value? hi
    obtain ⟨hj16, -⟩ := digitChar_of_value? hj
    have hbyte : (UInt8.ofNat (16 * i + j)).toNat = 16 * i + j := by
      rw [UInt8.toNat_ofNat']
      omega
    have htotal : (total * 16 + i) * 16 + j = total * 256 + (16 * i + j) := by omega
    rw [List.foldl_cons, List.foldl_cons, List.foldl_cons, hi, hj, Option.getD_some,
      Option.getD_some, hbyte, htotal]
    exact ih htail _

/-- **Digits spell the number that their bytes spell.** -/
theorem number_of_decode? {chars : List Char} {bytes : Bytes} (h : decode? chars = some bytes) :
    number chars = Bytes.toNat bytes := foldl_of_decode? h 0

end Hex

namespace Key

variable {text : String} {key : Key}

/-- Whether a text is 64 digits in lower case that spell a scalar other than zero. -/
structure SpellsScalar (text : String) : Prop where
  length : text.toList.length = 64
  isLowerDigit : ∀ c ∈ text.toList, Hex.isLowerDigit c
  pos : 0 < Hex.number text.toList
  lt : Hex.number text.toList < order

/-- What is written for a key spells its secret. -/
theorem number_hex (key : Key) : Hex.number key.hex.toList = key.secret.toNat := by
  rw [toList_hex, Hex.number_of_decode? (Hex.decode?_encode _)]
  rfl

/-- **A text spells a scalar** exactly if it is read as a key that can be used. -/
theorem spellsScalar_iff : SpellsScalar text ↔ ∃ key, ofHex text = .ok key ∧ key.IsUsable := by
  constructor
  · rintro ⟨hlength, hdigits, hpos, hlt⟩
    have hbytes : (Text.bytes text).length = 64 :=
      (Hex.byteLength_of_isLowerDigit hdigits).trans hlength
    obtain ⟨key, rfl⟩ := exists_hex_eq hdigits hbytes
    rw [number_hex] at hpos hlt
    exact ⟨_, ofHex_hex key, hpos, hlt⟩
  · rintro ⟨key, hread, hpos, hlt⟩
    obtain ⟨rfl, -⟩ := ofHex_eq_ok_iff.1 hread
    have hdigits := key.isLowerDigit_of_mem_hex
    refine ⟨?_, hdigits, ?_, ?_⟩
    · rw [← Hex.byteLength_of_isLowerDigit hdigits]
      exact key.length_bytes_hex
    · rwa [number_hex]
    · rwa [number_hex]

end Key

end Attest
