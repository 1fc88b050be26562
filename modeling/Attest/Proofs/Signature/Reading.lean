import Mathlib
import Attest.Proofs.Address
import Attest.Proofs.Signature

/-!
# Reading signatures

A text is read as a signature if it is `0x` and 130 digits, in whatever casing: the first 64 of them
are `r`, the next 64 are `s`, and the last two are the recovery byte. What is written again differs
from what was read in the case of letters only. All other texts are refused, with a cause that the
shape of the text decides (`Refused`).

The main statements are `Signature.parse_eq_ok_iff`, `Signature.parse_eq_error_iff` and, for all
that follows from them, `Signature.hex_codec`.
-/

namespace Attest

namespace Signature

variable {text : String} {digits : List Char} {signature : Signature}

/-! ## What is accepted -/

/-- Whether a text is `0x` and the given 130 digits, and these spell a signature. -/
structure Spells (text : String) (digits : List Char) (signature : Signature) : Prop where
  text : text.toList = '0' :: 'x' :: digits
  length : digits.length = 130
  isDigit : ∀ c ∈ digits, c ∈ Hex.digits
  r : Hex.decode? (digits.take 64) = some signature.r.toBytes
  s : Hex.decode? ((digits.drop 64).take 64) = some signature.s.toBytes
  v : Hex.decode? (digits.drop 128) = some [signature.v]

/-- The digits of the bytes of a signature are those of its parts. -/
theorem encode_toBytes (signature : Signature) :
    Hex.encode signature.toBytes = Hex.encode signature.r.toBytes ++
      (Hex.encode signature.s.toBytes ++ Hex.encode [signature.v]) := by
  rw [toBytes, Hex.encode_append, Hex.encode_append, List.append_assoc]

/-- Digits spell a signature exactly if they are, in lower case, what is written for it. -/
theorem spells_iff : Spells text digits signature ↔
    text.toList = '0' :: 'x' :: digits ∧ Text.lower digits = Hex.encode signature.toBytes := by
  have htake : ∀ n, Text.lower (digits.take n) = (Text.lower digits).take n :=
    fun n => List.map_take
  have hdrop : ∀ n, Text.lower (digits.drop n) = (Text.lower digits).drop n :=
    fun n => List.map_drop
  constructor
  · rintro ⟨htext, hlength, -, hr, hs, hv⟩
    refine ⟨htext, ?_⟩
    rw [Hex.decode?_eq_some_iff] at hr hs hv
    have hsplit : digits = digits.take 64 ++ ((digits.drop 64).take 64 ++ digits.drop 128) := by
      conv_lhs =>
        rw [← List.take_append_drop 64 digits, ← List.take_append_drop 64 (digits.drop 64),
          List.drop_drop]
    rw [hsplit, encode_toBytes, ← hr, ← hs, ← hv]
    simp only [Text.lower, List.map_append]
  · rintro ⟨htext, hlower⟩
    have hlength := Hex.length_of_lower_eq_encode hlower
    rw [length_toBytes] at hlength
    rw [encode_toBytes] at hlower
    refine ⟨htext, hlength, ?_, ?_, ?_, ?_⟩
    · intro c hc
      rw [← encode_toBytes] at hlower
      exact Hex.isDigit_iff_mem.1 (Hex.isDigit_of_lower_eq_encode hlower c hc)
    · rw [Hex.decode?_eq_some_iff, htake, hlower, List.take_left' (by simp)]
    · rw [Hex.decode?_eq_some_iff, Text.lower, List.map_take, List.map_drop, ← Text.lower, hlower,
        List.drop_left' (by simp), List.take_left' (by simp)]
    · rw [Hex.decode?_eq_some_iff, hdrop, hlower, ← List.append_assoc, List.drop_left' (by simp)]

/-- The marker and digits take one byte each. -/
theorem length_bytes_of_isDigit (htext : text.toList = '0' :: 'x' :: digits)
    (hdigits : ∀ c ∈ digits, Hex.isDigit c) : (Text.bytes text).length = digits.length + 2 := by
  change Text.byteLength text.toList = _
  rw [htext, Text.byteLength_marked, Hex.byteLength_of_isDigit hdigits]

theorem length_bytes_of_lower_eq (htext : text.toList = '0' :: 'x' :: digits)
    (h : Text.lower digits = Hex.encode signature.toBytes) : (Text.bytes text).length = 132 := by
  have hlength := Hex.length_of_lower_eq_encode h
  rw [length_toBytes] at hlength
  rw [length_bytes_of_isDigit htext (Hex.isDigit_of_lower_eq_encode h), hlength]

/-- Digits in any casing are read as the signature that they are written for in lower case. -/
theorem parse_of_lower_eq (htext : text.toList = '0' :: 'x' :: digits)
    (h : Text.lower digits = Hex.encode signature.toBytes) : parse text = .ok signature := by
  have hlength : Text.byteLength text.toList = 132 := length_bytes_of_lower_eq htext h
  obtain ⟨octets, rfl⟩ := exists_ofOctets signature
  rw [toBytes_ofOctets, ← Hex.decode?_eq_some_iff] at h
  rw [htext] at hlength
  rw [parse, htext]
  simp only [Text.afterMarker?, hlength, ne_eq, not_true_eq_false, ite_false, h, Option.bind_some,
    Octets.ofBytes?_toBytes]

theorem parse_of_spells (h : Spells text digits signature) : parse text = .ok signature := by
  obtain ⟨htext, hlower⟩ := spells_iff.1 h
  exact parse_of_lower_eq htext hlower

/-! ## What is refused -/

/-- Why a text is refused. The causes are in the order in which they are looked for: the next one
asks for all that the ones before it find missing. -/
inductive Refused (text : String) : Error → Prop where
  | missingMarker (hmarker : ¬['0', 'x'] <+: text.toList) : Refused text .missingMarker
  | wrongLength (hmarker : ['0', 'x'] <+: text.toList) (hlength : (Text.bytes text).length ≠ 132) :
      Refused text (.wrongLength (Text.bytes text).length)
  | notHex {rest : List Char} (htext : text.toList = '0' :: 'x' :: rest)
      (hlength : (Text.bytes text).length = 132) (hdigits : ∃ c ∈ rest, c ∉ Hex.digits) :
      Refused text .notHex

theorem parse_of_refused {error : Error} (h : Refused text error) : parse text = .error error := by
  cases h with
  | missingMarker hmarker => rw [parse, Text.afterMarker?_eq_none_iff.2 hmarker]
  | wrongLength hmarker hlength =>
    obtain ⟨rest, htext⟩ := hmarker
    rw [parse, Text.afterMarker?_eq_some_iff.2 htext.symm]
    exact if_pos hlength
  | @notHex rest htext hlength hdigits =>
    have hdecode : Hex.decode? rest = none := by
      rw [← Option.not_isSome_iff_eq_none, Hex.isSome_decode?_iff]
      rintro ⟨-, hall⟩
      obtain ⟨c, hc, hnot⟩ := hdigits
      exact hnot (Hex.isDigit_iff_mem.1 (hall c hc))
    rw [parse, Text.afterMarker?_eq_some_iff.2 htext]
    refine (if_neg (not_not.2 hlength)).trans ?_
    rw [hdecode]
    rfl

/-- A text of 132 bytes that begins with `0x` spells a signature if digits follow. -/
theorem exists_spells (htext : text.toList = '0' :: 'x' :: digits)
    (hlength : (Text.bytes text).length = 132) (hdigits : ∀ c ∈ digits, c ∈ Hex.digits) :
    ∃ signature, Spells text digits signature := by
  replace hdigits : ∀ c ∈ digits, Hex.isDigit c := fun c hc => Hex.isDigit_iff_mem.2 (hdigits c hc)
  rw [length_bytes_of_isDigit htext hdigits] at hlength
  have hcount : digits.length = 2 * 65 := by omega
  obtain ⟨bytes, hbytes, hlower⟩ := Hex.exists_lower_eq_encode hcount hdigits
  refine ⟨ofOctets ⟨bytes.toArray, hbytes⟩, spells_iff.2 ⟨htext, ?_⟩⟩
  rw [toBytes_ofOctets]
  exact hlower

theorem spells_or_refused (text : String) :
    (∃ digits signature, Spells text digits signature) ∨ ∃ error, Refused text error := by
  by_cases hmarker : ['0', 'x'] <+: text.toList
  case neg => exact .inr ⟨_, .missingMarker hmarker⟩
  by_cases hlength : (Text.bytes text).length = 132
  case neg => exact .inr ⟨_, .wrongLength hmarker hlength⟩
  obtain ⟨rest, htext⟩ := hmarker
  by_cases hdigits : ∀ c ∈ rest, c ∈ Hex.digits
  case neg =>
    simp only [not_forall, exists_prop] at hdigits
    exact .inr ⟨_, .notHex htext.symm hlength hdigits⟩
  obtain ⟨signature, hspells⟩ := exists_spells htext.symm hlength hdigits
  exact .inl ⟨rest, signature, hspells⟩

/-- **A text is read as a signature** exactly if its digits spell the signature. -/
theorem parse_eq_ok_iff : parse text = .ok signature ↔ ∃ digits, Spells text digits signature := by
  refine ⟨fun h => ?_, fun ⟨_, hspells⟩ => parse_of_spells hspells⟩
  rcases spells_or_refused text with ⟨digits, other, hspells⟩ | ⟨error, hrefused⟩
  · rw [parse_of_spells hspells] at h
    obtain rfl := Except.ok.inj h
    exact ⟨digits, hspells⟩
  · rw [parse_of_refused hrefused] at h
    cases h

/-- **All else is refused** with the first cause there is. -/
theorem parse_eq_error_iff {error : Error} : parse text = .error error ↔ Refused text error := by
  refine ⟨fun h => ?_, parse_of_refused⟩
  rcases spells_or_refused text with ⟨digits, signature, hspells⟩ | ⟨error', hrefused⟩
  · rw [parse_of_spells hspells] at h
    cases h
  · rw [parse_of_refused hrefused] at h
    obtain rfl := Except.error.inj h
    exact hrefused

/-- A character of two bytes in place of two digits. -/
example : parse (String.ofList ('0' :: 'x' :: List.replicate 128 '0' ++ ['é'])) =
    .error .notHex := by
  decide +kernel

/-! ## The codec -/

/-- What is written for a signature is `0x` and the lower-case form of the digits that it is read
from. -/
theorem Spells.toList_hex (h : Spells text digits signature) :
    signature.hex.toList = '0' :: 'x' :: Text.lower digits := by
  rw [hex, String.toList_ofList, (spells_iff.1 h).2]

theorem hex_injective : Function.Injective hex := by
  intro a b h
  have hparse := parse_hex a
  rw [h, parse_hex] at hparse
  exact (Except.ok.inj hparse).symm

/-- What is read as a signature is what is written for it, the case of letters apart. -/
theorem lower_toList_of_parse (h : parse text = .ok signature) :
    Text.lower text.toList = signature.hex.toList := by
  obtain ⟨digits, hspells⟩ := parse_eq_ok_iff.1 h
  rw [hspells.text, hspells.toList_hex]
  rfl

/-- Two accepted texts are the same signature exactly if they differ in the case of letters only. -/
theorem eq_iff_eqIgnoringCase {other : String} {signature' : Signature}
    (h : parse text = .ok signature) (h' : parse other = .ok signature') :
    signature = signature' ↔ Text.eqIgnoringCase text.toList other.toList = true := by
  rw [Text.eqIgnoringCase_iff, lower_toList_of_parse h, lower_toList_of_parse h', String.toList_inj]
  exact hex_injective.eq_iff.symm

/-- A text can be read exactly if it is `0x` and 130 digits. -/
theorem exists_parse_iff : (∃ signature, parse text = .ok signature) ↔
    ∃ digits, text.toList = '0' :: 'x' :: digits ∧ digits.length = 130 ∧
      ∀ c ∈ digits, c ∈ Hex.digits := by
  constructor
  · rintro ⟨signature, h⟩
    obtain ⟨digits, hspells⟩ := parse_eq_ok_iff.1 h
    exact ⟨digits, hspells.text, hspells.length, hspells.isDigit⟩
  · rintro ⟨digits, htext, hcount, hdigits⟩
    have hlength : (Text.bytes text).length = 132 := by
      rw [length_bytes_of_isDigit htext fun c hc => Hex.isDigit_iff_mem.2 (hdigits c hc), hcount]
    obtain ⟨signature, hspells⟩ := exists_spells htext hlength hdigits
    exact ⟨signature, parse_of_spells hspells⟩

/-- **The text codec of signatures.** What is written for 65 bytes reads back as these. A text can
be read exactly if it is `0x` and 130 digits; they are the digits of `r`, of `s` and of the recovery
byte, and what is written again is the same text in lower case. So accepted texts are the same
signature exactly if they are equal up to the case of letters. Refusals name the first cause there
is: no `0x`, a number of bytes other than 132, or a character that is no digit. -/
theorem hex_codec :
    (∀ octets : Octets 65, ∃ signature, parse (ofOctets octets).hex = .ok signature ∧
      signature.toBytes = octets.toBytes) ∧
    (∀ text, (∃ signature, parse text = .ok signature) ↔
      ∃ digits, text.toList = '0' :: 'x' :: digits ∧ digits.length = 130 ∧
        ∀ c ∈ digits, c ∈ Hex.digits) ∧
    (∀ text signature, parse text = .ok signature ↔
      ∃ digits, Spells text digits signature ∧
        signature.hex.toList = '0' :: 'x' :: Text.lower digits) ∧
    (∀ text text' signature signature', parse text = .ok signature →
      parse text' = .ok signature' →
      (signature = signature' ↔ Text.eqIgnoringCase text.toList text'.toList = true)) ∧
    ∀ text error, parse text = .error error ↔ Refused text error := by
  refine ⟨fun octets => ?_, fun text => exists_parse_iff, fun text signature => ?_, ?_,
    fun text error => parse_eq_error_iff⟩
  · exact ⟨ofOctets octets, parse_hex _, toBytes_ofOctets octets⟩
  · rw [parse_eq_ok_iff]
    exact exists_congr fun digits => (and_iff_left_of_imp Spells.toList_hex).symm
  · intro text text' signature signature' h h'
    exact eq_iff_eqIgnoringCase h h'

end Signature

end Attest
