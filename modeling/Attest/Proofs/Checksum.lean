import Mathlib
import Attest.Checksum
import Attest.Proofs.Text.Digits

/-!
# The checksummed form of any text

The checksummed form is made of any text, be it an address or not. It looks only at what the text is
in lower case, and without the marker if it has one. Casing changes nothing but the case of ASCII
letters. So what casing has done is undone before the digest is taken again, and the checksummed
form is its own checksummed form, whatever the digest function is.

The main statements are `lower_casing`, `ofText_of_unmarked` and `ofText_canonical`.
-/

namespace Attest

/-! ## Markers and cases -/

namespace Text

theorem afterMarker?_eq_some_iff {chars rest : List Char} :
    afterMarker? chars = some rest ↔ chars = '0' :: 'x' :: rest := by
  refine ⟨fun h => ?_, fun h => by rw [h]; rfl⟩
  unfold afterMarker? at h
  split at h
  · rw [Option.some.inj h]
  · cases h

theorem afterMarker?_eq_none_iff {chars : List Char} :
    afterMarker? chars = none ↔ ¬['0', 'x'] <+: chars := by
  rw [Option.eq_none_iff_forall_ne_some]
  simp only [ne_eq, afterMarker?_eq_some_iff]
  exact ⟨fun h ⟨rest, hrest⟩ => h rest hrest.symm, fun h rest hrest => h ⟨rest, hrest.symm⟩⟩

/-- Some characters without the marker in front of them, if there is one. -/
inductive Unmarked : List Char → List Char → Prop where
  | marked (rest : List Char) : Unmarked ('0' :: 'x' :: rest) rest
  | bare {chars : List Char} (h : ¬['0', 'x'] <+: chars) : Unmarked chars chars

theorem exists_unmarked (chars : List Char) : ∃ rest, Unmarked chars rest := by
  by_cases h : ['0', 'x'] <+: chars
  · obtain ⟨rest, rfl⟩ := h
    exact ⟨rest, .marked rest⟩
  · exact ⟨chars, .bare h⟩

theorem Unmarked.getD_afterMarker? {chars rest : List Char} (h : Unmarked chars rest) :
    (afterMarker? chars).getD chars = rest := by
  cases h with
  | marked => rfl
  | bare h => rw [afterMarker?_eq_none_iff.2 h, Option.getD_none]

theorem eqIgnoringCase_iff {a b : List Char} : eqIgnoringCase a b = true ↔ lower a = lower b :=
  decide_eq_true_iff

/-- Characters are their own lower-case form exactly if no letter is in upper case. -/
theorem lower_eq_self_iff {chars : List Char} : lower chars = chars ↔ ∀ c ∈ chars, ¬c.isUpper := by
  constructor
  · intro h c hc
    rw [← h] at hc
    obtain ⟨d, -, rfl⟩ := List.mem_map.1 hc
    simp [Char.isUpper_toLower_eq_false]
  · intro h
    exact (List.map_congr_left fun c hc => Char.toLower_eq_of_not_isUpper (h c hc)).trans
      (List.map_id' _)

@[simp] theorem lower_lower (chars : List Char) : lower (lower chars) = lower chars := by
  refine lower_eq_self_iff.2 fun c hc => ?_
  obtain ⟨d, -, rfl⟩ := List.mem_map.1 hc
  simp [Char.isUpper_toLower_eq_false]

/-- Only characters of ASCII have a case. -/
theorem lt_of_isAlpha {c : Char} (h : c.isAlpha) : c.toNat < 128 := by
  simp only [Char.isAlpha, Char.isLower, Bool.or_eq_true, isUpper_iff, Bool.and_eq_true,
    decide_eq_true_eq, UInt32.le_iff_toNat_le, ge_iff_le] at h
  have hends : 'z'.val.toNat = 122 := rfl
  have hnat : c.val.toNat = c.toNat := rfl
  omega

end Text

namespace Checksum

/-! ## Casing -/

theorem toLower_recase (digest : Octets 32) (position : ℕ) (c : Char) :
    (recase digest position c).toLower = c.toLower := by
  unfold recase
  split
  · exact Char.toLower_toUpper_eq_toLower c
  · rfl

/-- Casing changes nothing but the case of letters. -/
theorem lower_casing (chars : List Char) : Text.lower (casing chars) = Text.lower chars := by
  refine List.ext_getElem (by simp [Text.lower, casing]) fun i hi hi' => ?_
  simp only [Text.lower, casing, List.getElem_map, List.getElem_mapIdx, toLower_recase]

theorem not_isBlank_recase (digest : Octets 32) (position : ℕ) {c : Char}
    (h : ¬Text.isBlank c) : ¬Text.isBlank (recase digest position c) := by
  unfold recase
  split
  case isTrue hcond =>
    rw [Bool.and_eq_true] at hcond
    have hupper : c.toUpper.isUpper := by rw [Char.isUpper_toUpper_eq_isAlpha, hcond.1]
    rw [Text.isUpper_iff] at hupper
    simp only [Text.isBlank, Bool.or_eq_true, Bool.and_eq_true, decide_eq_true_eq]
    omega
  case isFalse => exact h

/-- Casing makes no character blank. -/
theorem not_isBlank_casing {chars : List Char} (h : ∀ c ∈ chars, ¬Text.isBlank c) :
    ∀ c ∈ casing chars, ¬Text.isBlank c := by
  intro c hc
  obtain ⟨i, hi, rfl⟩ := List.mem_mapIdx.1 hc
  exact not_isBlank_recase _ _ (h _ (List.getElem_mem hi))

/-- Casing leaves characters alone that are not of ASCII. -/
theorem recase_of_not_ascii (digest : Octets 32) (position : ℕ) {c : Char} (h : 128 ≤ c.toNat) :
    recase digest position c = c := by
  have halpha : c.isAlpha = false := by
    rw [← Bool.not_eq_true]
    intro hletter
    have hlt := Text.lt_of_isAlpha hletter
    omega
  rw [recase, halpha]
  rfl

theorem getElem?_casing (chars : List Char) (i : ℕ) :
    (casing chars)[i]? = chars[i]?.map (recase (keccak256 (Text.utf8 chars)) i) :=
  List.getElem?_mapIdx

/-! ## The checksummed form -/

section Unmarked

variable {text other : String} {digits digits' : List Char}

/-- **The checksummed form looks only at the characters after the marker**, in lower case. -/
theorem ofText_of_unmarked (h : Text.Unmarked text.toList digits) :
    ofText text = String.ofList ('0' :: 'x' :: casing (Text.lower digits)) := by
  rw [ofText, h.getD_afterMarker?]

theorem ofText_eq_of_lower_eq (h : Text.Unmarked text.toList digits)
    (h' : Text.Unmarked other.toList digits') (hlower : Text.lower digits = Text.lower digits') :
    ofText text = ofText other := by
  rw [ofText_of_unmarked h, ofText_of_unmarked h', hlower]

/-- A text with the marker put in front. -/
theorem unmarked_marked (text : String) : Text.Unmarked ("0x" ++ text).toList text.toList := by
  rw [String.toList_append]
  exact .marked text.toList

/-- **The checksummed form is its own checksummed form.** -/
theorem ofText_ofText (text : String) : ofText (ofText text) = ofText text := by
  obtain ⟨digits, h⟩ := Text.exists_unmarked text.toList
  have hform : Text.Unmarked (ofText text).toList (casing (Text.lower digits)) := by
    rw [ofText_of_unmarked h, String.toList_ofList]
    exact .marked _
  refine ofText_eq_of_lower_eq hform h ?_
  rw [lower_casing, Text.lower_lower]

/-- Characters that are not of ASCII stay where they are. -/
theorem getElem?_casing_lower {i : ℕ} {c : Char} (h : digits[i]? = some c) (hc : 128 ≤ c.toNat) :
    (casing (Text.lower digits))[i]? = some c := by
  have hupper : ¬c.isUpper := by
    rw [Text.isUpper_iff]
    omega
  rw [getElem?_casing, Text.lower, List.getElem?_map, h, Option.map_some, Option.map_some,
    Char.toLower_eq_of_not_isUpper hupper, recase_of_not_ascii _ _ hc]

/-- **Checksum casing of any text.** The checksummed form of a text is its own checksummed form. It
is `0x` and as many characters as the text has without one leading `0x`, the same up to the case of
ASCII letters; no other character is changed. With `0x` in front, texts that are equal up to the case
of letters have the same form; and a text that does not begin with `0x` has the form that it has with
`0x` in front. -/
theorem ofText_canonical (text : String) :
    ofText (ofText text) = ofText text ∧
    (∃ digits cased, Text.Unmarked text.toList digits ∧
      (ofText text).toList = '0' :: 'x' :: cased ∧ cased.length = digits.length ∧
      Text.lower cased = Text.lower digits ∧
      ∀ (i : ℕ) (c : Char), digits[i]? = some c → 128 ≤ c.toNat → cased[i]? = some c) ∧
    (∀ other : String, Text.eqIgnoringCase text.toList other.toList = true →
      ofText ("0x" ++ text) = ofText ("0x" ++ other)) ∧
    (¬['0', 'x'] <+: text.toList → ofText text = ofText ("0x" ++ text)) := by
  refine ⟨ofText_ofText text, ?_, ?_, ?_⟩
  · obtain ⟨digits, h⟩ := Text.exists_unmarked text.toList
    refine ⟨digits, casing (Text.lower digits), h, ?_, ?_, ?_, fun i c => getElem?_casing_lower⟩
    · rw [ofText_of_unmarked h, String.toList_ofList]
    · rw [casing, List.length_mapIdx, Text.lower, List.length_map]
    · rw [lower_casing, Text.lower_lower]
  · intro other hcase
    exact ofText_eq_of_lower_eq (unmarked_marked text) (unmarked_marked other)
      (Text.eqIgnoringCase_iff.1 hcase)
  · intro hbare
    exact ofText_eq_of_lower_eq (.bare hbare) (unmarked_marked text) rfl

/-- Only a marker in lower case is one, and only at the front. -/
example : ofText "0Xé0xabcdef" = "0x0Xé0xabCDEF" := by decide +kernel

end Unmarked

end Checksum

end Attest
