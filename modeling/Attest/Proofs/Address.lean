import Mathlib
import Attest.Address
import Attest.Proofs.Checksum
import Attest.Proofs.Signature
import Attest.Proofs.Text.Hexadecimal

/-!
# Addresses in text

A text that is `0x` and 40 digits spells one address, whatever the casing of its letters. It is
accepted in two casings: all letters in lower case, or each as the checksum of the address asks. All
other texts are refused, with a cause that the shape of the text decides (`Refused`).

The main statements are `parse_eq_ok_iff`, `parse_eq_error_iff` and, for all that follows from them,
`text_codec`.
-/

namespace Attest

namespace Hex

variable {a : List Char}

/-- Digits take one byte each. -/
theorem byteLength_of_isDigit (h : ∀ c ∈ a, isDigit c) : Text.byteLength a = a.length :=
  Text.byteLength_eq_length fun c hc => lt_of_isDigit (h c hc)

/-- No marker stands in front of digits. -/
theorem unmarked_of_isDigit (h : ∀ c ∈ a, isDigit c) : Text.Unmarked a a := by
  refine .bare ?_
  rintro ⟨rest, rfl⟩
  exact absurd (h 'x' (by simp)) (by decide)

end Hex

namespace Checksum

/-- The checksummed form of digits looks only at what they are in lower case. -/
theorem ofText_of_isDigit {digits : List Char} (h : ∀ c ∈ digits, Hex.isDigit c) :
    ofText (String.ofList digits) = String.ofList ('0' :: 'x' :: casing (Text.lower digits)) := by
  apply ofText_of_unmarked
  rw [String.toList_ofList]
  exact Hex.unmarked_of_isDigit h

end Checksum

namespace Address

variable {address : Address} {digits : List Char} {text : String}

/-! ## Digits of addresses -/

@[simp] theorem length_digits (address : Address) : address.digits.length = 40 := by
  rw [digits, Hex.length_encode, Octets.length_toBytes]

theorem digits_injective : Function.Injective Address.digits := by
  rintro ⟨a⟩ ⟨b⟩ h
  exact congrArg mk (Octets.toBytes_injective (Hex.encode_injective h))

@[simp] theorem lower_digits (address : Address) : Text.lower address.digits = address.digits :=
  Hex.lower_encode _

/-- Digits in any casing, 40 of them, are those of an address. -/
theorem exists_lower_eq (hlength : Text.byteLength digits = 40)
    (hdigits : ∀ c ∈ digits, Hex.isDigit c) :
    ∃ address : Address, Text.lower digits = address.digits := by
  have hforty : digits.length = 2 * 20 := by rw [← Hex.byteLength_of_isDigit hdigits, hlength]
  obtain ⟨bytes, htwenty, hlower⟩ := Hex.exists_lower_eq_encode hforty hdigits
  exact ⟨⟨⟨bytes.toArray, htwenty⟩⟩, hlower⟩

section Spelled

variable (h : Text.lower digits = address.digits)

include h

theorem isDigit_of_lower_eq : ∀ c ∈ digits, Hex.isDigit c :=
  Hex.isDigit_of_lower_eq_encode h

theorem byteLength_of_lower_eq : Text.byteLength digits = 40 := by
  rw [Hex.byteLength_of_isDigit (isDigit_of_lower_eq h), ← address.length_digits, ← h, Text.lower,
    List.length_map]

/-- The digits are read as the bytes of the address. -/
theorem decode?_of_lower_eq :
    (Hex.decode? digits).bind (Octets.ofBytes? 20) = some address.octets := by
  rw [Hex.decode?_eq_some_iff.2 h, Option.bind_some, Octets.ofBytes?_toBytes]

/-- No digit is in upper case exactly if the digits are those of the lower-case form. -/
theorem any_isUpper_eq_false_iff : digits.any Char.isUpper = false ↔ digits = address.digits := by
  rw [← h, eq_comm (b := Text.lower digits), Text.lower_eq_self_iff, List.any_eq_false]

variable (htext : text.toList = '0' :: 'x' :: digits)

include htext

omit h in
theorem eq_lowercased_iff : text = address.lowercased ↔ digits = address.digits := by
  rw [← String.toList_inj, htext, lowercased, String.toList_ofList]
  simp

/-- Of the texts that spell an address, one is in lower case. -/
theorem isLowercased_iff_of_lower_eq : isLowercased text = true ↔ text = address.lowercased := by
  rw [isLowercased, htext, eq_lowercased_iff htext, ← h, eq_comm (b := Text.lower digits),
    Text.lower_eq_self_iff]
  simp only [Text.afterMarker?, byteLength_of_lower_eq h, decide_true, Bool.true_and,
    List.all_eq_true, Hex.isLowerDigit_iff_isDigit]
  exact forall₂_congr fun c hc => and_iff_right (isDigit_of_lower_eq h c hc)

/-- Of the texts that spell an address, one has the casing of its checksum. -/
theorem isChecksummed_iff_of_lower_eq : isChecksummed text = true ↔ text = address.checksummed := by
  have hdigits := isDigit_of_lower_eq h
  rw [isChecksummed, htext]
  simp only [Text.afterMarker?, byteLength_of_lower_eq h, decide_true, Bool.true_and,
    List.all_eq_true.2 hdigits, Checksum.ofText_of_isDigit hdigits, h, decide_eq_true_iff]
  exact eq_comm

/-- **Of the texts that spell an address, two are accepted**; the others have a wrong checksum. -/
theorem parse_of_lower_eq :
    parse text = if text = address.lowercased ∨ text = address.checksummed then .ok address
      else .error .wrongChecksum := by
  have hall : digits.all Hex.isDigit = true := List.all_eq_true.2 (isDigit_of_lower_eq h)
  have hcasing : (digits.any Char.isUpper && !isChecksummed text) = true ↔
      ¬(text = address.lowercased ∨ text = address.checksummed) := by
    rw [not_or, eq_lowercased_iff htext, ← any_isUpper_eq_false_iff h,
      ← isChecksummed_iff_of_lower_eq h htext]
    simp
  rw [parse, htext]
  simp only [Text.afterMarker?, byteLength_of_lower_eq h, ne_eq, not_true_eq_false, ite_false, hall,
    Bool.not_true, Bool.false_eq_true, hcasing, decode?_of_lower_eq h, ite_not]

end Spelled

/-! ## What is accepted, and why the rest is refused -/

/-- Why a text is refused. The causes are in the order in which they are looked for: the next one
asks for all that the ones before it find missing. -/
inductive Refused (text : String) : Error → Prop where
  | missingMarker (hmarker : ¬['0', 'x'] <+: text.toList) : Refused text .missingMarker
  | wrongLength {rest : List Char} (htext : text.toList = '0' :: 'x' :: rest)
      (hlength : Text.byteLength rest ≠ 40) : Refused text (.wrongLength (Text.byteLength rest))
  | notHex {rest : List Char} (htext : text.toList = '0' :: 'x' :: rest)
      (hlength : Text.byteLength rest = 40)
      (hdigits : ∃ byte ∈ Text.utf8 rest, Hex.isDigitByte byte = false) : Refused text .notHex
  | wrongChecksum {rest : List Char} (htext : text.toList = '0' :: 'x' :: rest)
      (hlength : Text.byteLength rest = 40)
      (hdigits : ∀ byte ∈ Text.utf8 rest, Hex.isDigitByte byte = true)
      (hcasing : ∀ address : Address, text ≠ address.lowercased ∧ text ≠ address.checksummed) :
      Refused text .wrongChecksum

theorem parse_of_refused {error : Error} (h : Refused text error) : parse text = .error error := by
  cases h with
  | missingMarker hmarker =>
    rw [parse, Text.afterMarker?_eq_none_iff.2 hmarker]
  | wrongLength htext hlength =>
    rw [parse, Text.afterMarker?_eq_some_iff.2 htext]
    exact if_pos hlength
  | @notHex rest htext hlength hdigits =>
    have hall : rest.all Hex.isDigit = false := by
      obtain ⟨byte, hbyte, hfalse⟩ := hdigits
      rw [← Bool.not_eq_true, List.all_eq_true, ← Hex.forall_mem_utf8_iff]
      intro hall
      rw [hall byte hbyte] at hfalse
      cases hfalse
    rw [parse, Text.afterMarker?_eq_some_iff.2 htext]
    simp only [hlength, ne_eq, not_true_eq_false, ite_false, hall, Bool.not_false, ite_true]
  | wrongChecksum htext hlength hdigits hcasing =>
    obtain ⟨address, haddress⟩ := exists_lower_eq hlength (Hex.forall_mem_utf8_iff.1 hdigits)
    rw [parse_of_lower_eq haddress htext]
    exact if_neg (not_or.2 (hcasing address))

/-- The two forms of an address differ in the casing of their letters only. -/
theorem exists_of_accepted (h : text = address.lowercased ∨ text = address.checksummed) :
    ∃ digits, text.toList = '0' :: 'x' :: digits ∧ Text.lower digits = address.digits := by
  rcases h with rfl | rfl
  · exact ⟨address.digits, by rw [lowercased, String.toList_ofList], lower_digits address⟩
  · exact ⟨Checksum.casing address.digits, by rw [checksummed, String.toList_ofList],
      by rw [Checksum.lower_casing, lower_digits]⟩

theorem parse_of_accepted (h : text = address.lowercased ∨ text = address.checksummed) :
    parse text = .ok address := by
  obtain ⟨digits, htext, hdigits⟩ := exists_of_accepted h
  rw [parse_of_lower_eq hdigits htext, if_pos h]

theorem accepted_or_refused (text : String) :
    (∃ address : Address, text = address.lowercased ∨ text = address.checksummed) ∨
      ∃ error, Refused text error := by
  by_cases hmarker : ['0', 'x'] <+: text.toList
  case neg => exact .inr ⟨_, .missingMarker hmarker⟩
  obtain ⟨rest, htext⟩ := hmarker
  replace htext : text.toList = '0' :: 'x' :: rest := htext.symm
  by_cases hlength : Text.byteLength rest = 40
  case neg => exact .inr ⟨_, .wrongLength htext hlength⟩
  by_cases hdigits : ∀ byte ∈ Text.utf8 rest, Hex.isDigitByte byte = true
  case neg =>
    simp only [not_forall, exists_prop, Bool.not_eq_true] at hdigits
    exact .inr ⟨_, .notHex htext hlength hdigits⟩
  by_cases hcasing : ∃ address : Address, text = address.lowercased ∨ text = address.checksummed
  case pos => exact .inl hcasing
  simp only [not_exists, not_or] at hcasing
  exact .inr ⟨_, .wrongChecksum htext hlength hdigits hcasing⟩

/-- **Two texts are read as an address**, its lower-case and its checksummed form. -/
theorem parse_eq_ok_iff :
    parse text = .ok address ↔ text = address.lowercased ∨ text = address.checksummed := by
  refine ⟨fun h => ?_, parse_of_accepted⟩
  rcases accepted_or_refused text with ⟨other, hother⟩ | ⟨error, herror⟩
  · rw [parse_of_accepted hother] at h
    obtain rfl := Except.ok.inj h
    exact hother
  · rw [parse_of_refused herror] at h
    cases h

/-- **All else is refused** with the first cause there is. -/
theorem parse_eq_error_iff {error : Error} : parse text = .error error ↔ Refused text error := by
  refine ⟨fun h => ?_, parse_of_refused⟩
  rcases accepted_or_refused text with ⟨other, hother⟩ | ⟨error', herror'⟩
  · rw [parse_of_accepted hother] at h
    cases h
  · rw [parse_of_refused herror'] at h
    obtain rfl := Except.error.inj h
    exact herror'

/-- One letter of a checksummed text in the other case. -/
example : parse "0x5AAeb6053F3E94C9b9A09f33669435E7Ef1BeAed" = .error .wrongChecksum := by
  decide +kernel

/-! ## The checks -/

theorem isLowercased_iff :
    isLowercased text = true ↔ ∃ address : Address, text = address.lowercased := by
  constructor
  · intro h
    have hcheck := h
    unfold isLowercased at hcheck
    split at hcheck
    case h_2 => cases hcheck
    case h_1 digits hmarker =>
      rw [Bool.and_eq_true, decide_eq_true_iff, List.all_eq_true] at hcheck
      obtain ⟨hlength, hlower⟩ := hcheck
      have hdigits := fun c hc => Hex.isDigit_of_isLowerDigit (hlower c hc)
      obtain ⟨address, haddress⟩ := exists_lower_eq hlength hdigits
      have htext := Text.afterMarker?_eq_some_iff.1 hmarker
      exact ⟨address, (isLowercased_iff_of_lower_eq haddress htext).1 h⟩
  · rintro ⟨address, h⟩
    obtain ⟨digits, htext, hdigits⟩ := exists_of_accepted (.inl h)
    exact (isLowercased_iff_of_lower_eq hdigits htext).2 h

theorem isChecksummed_iff :
    isChecksummed text = true ↔ ∃ address : Address, text = address.checksummed := by
  constructor
  · intro h
    have hcheck := h
    unfold isChecksummed at hcheck
    split at hcheck
    case h_2 => cases hcheck
    case h_1 digits hmarker =>
      rw [Bool.and_eq_true, Bool.and_eq_true, decide_eq_true_iff, List.all_eq_true] at hcheck
      obtain ⟨⟨hlength, hdigits⟩, -⟩ := hcheck
      obtain ⟨address, haddress⟩ := exists_lower_eq hlength hdigits
      have htext := Text.afterMarker?_eq_some_iff.1 hmarker
      exact ⟨address, (isChecksummed_iff_of_lower_eq haddress htext).1 h⟩
  · rintro ⟨address, h⟩
    obtain ⟨digits, htext, hdigits⟩ := exists_of_accepted (.inr h)
    exact (isChecksummed_iff_of_lower_eq hdigits htext).2 h

/-- A text passes the checks exactly if it can be read. -/
theorem isValid_iff : isValid text = true ↔ ∃ address, parse text = .ok address := by
  simp only [isValid, Bool.or_eq_true, isLowercased_iff, isChecksummed_iff, parse_eq_ok_iff,
    exists_or]

/-! ## Casing -/

/-- What is read as an address is its lower-case form, the case of letters apart. -/
theorem lower_toList_of_parse (h : parse text = .ok address) :
    Text.lower text.toList = address.lowercased.toList := by
  obtain ⟨digits, htext, hdigits⟩ := exists_of_accepted (parse_eq_ok_iff.1 h)
  rw [htext, lowercased, String.toList_ofList, ← hdigits]
  rfl

theorem lowercased_injective : Function.Injective lowercased := by
  intro a b h
  rw [lowercased, lowercased, String.ofList_inj, List.cons.injEq, List.cons.injEq] at h
  exact digits_injective h.2.2

/-- Two accepted texts are the same address exactly if they differ in the case of letters only. -/
theorem eq_iff_eqIgnoringCase {other : String} {address' : Address}
    (h : parse text = .ok address) (h' : parse other = .ok address') :
    address = address' ↔ Text.eqIgnoringCase text.toList other.toList = true := by
  rw [Text.eqIgnoringCase_iff, lower_toList_of_parse h, lower_toList_of_parse h', String.toList_inj]
  exact lowercased_injective.eq_iff.symm

/-- A checksummed text with the case of some letters changed has a wrong checksum. -/
theorem isChecksummed_of_recased (hne : text ≠ address.checksummed)
    (hcase : Text.eqIgnoringCase text.toList address.checksummed.toList = true) :
    isChecksummed text = false := by
  rw [← Bool.not_eq_true, isChecksummed_iff]
  rintro ⟨other, rfl⟩
  have hother : parse other.checksummed = .ok other := parse_eq_ok_iff.2 (.inr rfl)
  have haddress : parse address.checksummed = .ok address := parse_eq_ok_iff.2 (.inr rfl)
  rw [(eq_iff_eqIgnoringCase hother haddress).2 hcase] at hne
  exact hne rfl

/-- A text with a wrong checksum is accepted in lower case. -/
theorem parse_lower_of_wrongChecksum (h : parse text = .error .wrongChecksum) :
    ∃ address, parse (String.ofList (Text.lower text.toList)) = .ok address := by
  cases parse_eq_error_iff.1 h with
  | wrongChecksum htext hlength hdigits =>
    obtain ⟨address, haddress⟩ := exists_lower_eq hlength (Hex.forall_mem_utf8_iff.1 hdigits)
    refine ⟨address, parse_eq_ok_iff.2 (.inl ?_)⟩
    rw [htext, lowercased, ← haddress]
    rfl

/-- **The text codec of addresses.** Reading accepts the lower-case and the checksummed form of each
address and nothing else, and each check accepts its own form. So a checksummed text with other
casing fails its check, and accepted texts are the same address exactly if they are equal up to the
case of letters. Refusals name the first cause there is, and a wrong checksum is told of no text but
one that is accepted in lower case. -/
theorem text_codec (text : String) :
    (∀ address, parse text = .ok address ↔
      text = address.lowercased ∨ text = address.checksummed) ∧
    (isValid text = true ↔ ∃ address, parse text = .ok address) ∧
    (isLowercased text = true ↔ ∃ address : Address, text = address.lowercased) ∧
    (isChecksummed text = true ↔ ∃ address : Address, text = address.checksummed) ∧
    (∀ address : Address, text ≠ address.checksummed →
      Text.eqIgnoringCase text.toList address.checksummed.toList = true →
      isChecksummed text = false) ∧
    (∀ other address address', parse text = .ok address → parse other = .ok address' →
      (address = address' ↔ Text.eqIgnoringCase text.toList other.toList = true)) ∧
    (∀ error, parse text = .error error ↔ Refused text error) ∧
    (parse text = .error .wrongChecksum →
      ∃ address, parse (String.ofList (Text.lower text.toList)) = .ok address) := by
  refine ⟨fun address => parse_eq_ok_iff, isValid_iff, isLowercased_iff, isChecksummed_iff, ?_, ?_,
    fun error => parse_eq_error_iff, parse_lower_of_wrongChecksum⟩
  · intro address hne hcase
    exact isChecksummed_of_recased hne hcase
  · intro other address address' h h'
    exact eq_iff_eqIgnoringCase h h'

end Address

end Attest
