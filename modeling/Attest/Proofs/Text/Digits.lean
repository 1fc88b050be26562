import Mathlib
import Attest.Text
import Attest.Hex
import Attest.Text.Blank

/-!
# Written digits

What is written in hexadecimal consists of lower-case digits. These take one byte each, are not
blank and have no other lower-case form, so that measuring, trimming and casing leave written bytes
alone.

The main statements are `Hex.byteLength_encode` and `Text.trim_eq_self`.
-/

namespace Attest

/-- The upper-case letters as code points. -/
theorem Text.isUpper_iff {c : Char} : c.isUpper ↔ 65 ≤ c.toNat ∧ c.toNat ≤ 90 := by
  simp only [Char.isUpper, decide_eq_true_eq, ge_iff_le, UInt32.le_iff_toNat_le]
  rfl

namespace Hex

/-- The digits as code points. -/
theorem isLowerDigit_iff {c : Char} :
    isLowerDigit c ↔ 48 ≤ c.toNat ∧ c.toNat ≤ 57 ∨ 97 ≤ c.toNat ∧ c.toNat ≤ 102 := by
  simp only [isLowerDigit, decide_eq_true_eq, Char.le_def, UInt32.le_iff_toNat_le]
  rfl

theorem isLowerDigit_digitChar {value : ℕ} (h : value < 16) :
    isLowerDigit (Nat.digitChar value) := by
  have := List.mem_range.2 h
  revert value
  decide

theorem isLowerDigit_of_mem_encode {bytes : Bytes} {c : Char} (h : c ∈ encode bytes) :
    isLowerDigit c := by
  obtain ⟨byte, -, hc⟩ := List.mem_flatMap.1 h
  have hlt := byte.toNat_lt
  simp only [List.mem_cons, List.not_mem_nil, or_false] at hc
  rcases hc with rfl | rfl
  · exact isLowerDigit_digitChar (by omega)
  · exact isLowerDigit_digitChar (by omega)

theorem not_isBlank_of_isLowerDigit {c : Char} (h : isLowerDigit c) : ¬Text.isBlank c := by
  rw [isLowerDigit_iff] at h
  simp only [Text.isBlank, Bool.or_eq_true, Bool.and_eq_true, decide_eq_true_eq]
  omega

theorem toLower_of_isLowerDigit {c : Char} (h : isLowerDigit c) : c.toLower = c := by
  rw [isLowerDigit_iff] at h
  refine Char.toLower_eq_of_not_isUpper fun hupper => ?_
  rw [Text.isUpper_iff] at hupper
  omega

end Hex

namespace Text

@[simp] theorem byteLength_nil : byteLength [] = 0 := rfl

@[simp] theorem byteLength_cons (c : Char) (chars : List Char) :
    byteLength (c :: chars) = c.utf8Size + byteLength chars := by
  simp [byteLength, utf8]

theorem byteLength_marked (chars : List Char) :
    byteLength ('0' :: 'x' :: chars) = byteLength chars + 2 := by
  have hsize : '0'.utf8Size = 1 ∧ 'x'.utf8Size = 1 := by decide
  rw [byteLength_cons, byteLength_cons, hsize.1, hsize.2]
  omega

/-- Characters of ASCII take one byte each. -/
theorem byteLength_eq_length {chars : List Char} (h : ∀ c ∈ chars, c.toNat < 128) :
    byteLength chars = chars.length := by
  induction chars with
  | nil => rfl
  | cons c chars ih =>
    obtain ⟨hc, hchars⟩ := List.forall_mem_cons.1 h
    have hsize : c.utf8Size = 1 := by
      rw [Char.utf8Size_eq_one_iff, UInt32.le_iff_toNat_le]
      exact Nat.le_of_lt_succ hc
    rw [byteLength_cons, hsize, ih hchars, List.length_cons, Nat.add_comm]

/-- Trimming leaves characters alone that are not blank. -/
theorem trim_eq_self {chars : List Char} (h : ∀ c ∈ chars, ¬isBlank c) : trim chars = chars := by
  have hdrop : ∀ {cs : List Char}, (∀ c ∈ cs, ¬isBlank c) → cs.dropWhile isBlank = cs := by
    intro cs hcs
    cases cs with
    | nil => rfl
    | cons c cs => exact List.dropWhile_cons_of_neg (hcs c (List.mem_cons_self ..))
  rw [trim, hdrop h, hdrop fun c hc => h c (List.mem_reverse.1 hc), List.reverse_reverse]

end Text

namespace Hex

theorem byteLength_encode (bytes : Bytes) :
    Text.byteLength (encode bytes) = 2 * bytes.length := by
  rw [Text.byteLength_eq_length, length_encode]
  intro c hc
  have := isLowerDigit_iff.1 (isLowerDigit_of_mem_encode hc)
  omega

end Hex

end Attest
