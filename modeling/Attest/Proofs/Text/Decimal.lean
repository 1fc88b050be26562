import Mathlib
import Attest.Text

/-!
# Numbers in decimal

A number is written in decimal in one way: in digits that spell it, with no zero in front of other
digits. Larger numbers do not take fewer digits.

The main statements are `Text.isDecimal_iff` and `Text.length_decimal_mono`.
-/

namespace Attest.Text

/-- Whether some characters are a number in decimal, without leading zeros. -/
structure IsDecimal (value : ℕ) (written : List Char) : Prop where
  ne_nil : written ≠ []
  isDigit : ∀ c ∈ written, c.isDigit
  spells : Nat.ofDigitChars 10 written 0 = value
  /-- only zero itself starts with a zero -/
  leading : written.head? = some '0' → written = ['0']

/-- A written number starts with a zero only if it is zero. -/
theorem eq_zero_of_head?_decimal {value : ℕ} (h : (decimal value).head? = some '0') :
    value = 0 := by
  induction value using Nat.strong_induction_on with
  | h value ih =>
    rw [decimal, Nat.toDigits_eq_if (by decide)] at h
    split_ifs at h with hlt
    · rw [List.head?_cons, Option.some.injEq, Nat.digitChar_eq_zero] at h
      exact h
    · -- the digits in front of the last one are those of a smaller number, and that is not zero
      rw [List.head?_append_of_ne_nil _ Nat.toDigits_ne_nil] at h
      have hzero := ih (value / 10) (by omega) h
      omega

theorem isDecimal_decimal (value : ℕ) : IsDecimal value (decimal value) where
  ne_nil := Nat.toDigits_ne_nil
  isDigit _ hc := Nat.isDigit_of_mem_toDigits (by decide) (by decide) hc
  spells := Nat.ofDigitChars_ten_toDigits
  leading h := by
    rw [eq_zero_of_head?_decimal h]
    rfl

/-- Digits taken one by one from the front give the number that they spell. -/
theorem foldl_eq_ofDigitChars (digits : List Char) :
    digits.foldl (fun value c => value * 10 + (c.toNat - '0'.toNat)) 0 =
      Nat.ofDigitChars 10 digits 0 := by
  rw [Nat.ofDigitChars]
  congr 1
  funext value c
  rw [Nat.mul_comm]

/-- A digit is the one that is written for its value. -/
theorem digitChar_of_isDigit {c : Char} (h : c.isDigit) :
    c.toNat - '0'.toNat < 10 ∧ Nat.digitChar (c.toNat - '0'.toNat) = c := by
  have hrange := Char.isDigit_iff_toNat.1 h
  have hends : '0'.toNat = 48 ∧ '9'.toNat = 57 := ⟨rfl, rfl⟩
  have hlt : c.toNat - '0'.toNat < 10 := by omega
  refine ⟨hlt, Char.toNat_inj.1 ?_⟩
  rw [Nat.toNat_digitChar_of_lt_ten hlt]
  omega

/-- What stands in front of the last digit is a number too, and does not start with a zero. -/
theorem IsDecimal.of_concat {value : ℕ} {written : List Char} {c : Char}
    (h : IsDecimal value (written ++ [c])) (hne : written ≠ []) :
    IsDecimal (Nat.ofDigitChars 10 written 0) written ∧ written.head? ≠ some '0' := by
  have hhead : written.head? ≠ some '0' := by
    intro hzero
    have hsingle := h.leading (by rw [List.head?_append_of_ne_nil _ hne, hzero])
    have hlength := congrArg List.length hsingle
    exact hne (List.eq_nil_of_length_eq_zero (by simpa using hlength))
  refine ⟨⟨hne, fun d hd => ?_, rfl, fun hzero => absurd hzero hhead⟩, hhead⟩
  exact h.isDigit d (List.mem_append_left _ hd)

/-- A number is written in one way only. -/
theorem IsDecimal.eq_decimal {value : ℕ} {written : List Char} (h : IsDecimal value written) :
    written = decimal value := by
  induction written using List.reverseRecOn generalizing value with
  | nil => exact absurd rfl h.ne_nil
  | append_singleton written c ih =>
    obtain ⟨hlt, hdigit⟩ := digitChar_of_isDigit (h.isDigit c (by simp))
    have hvalue := h.spells
    rw [Nat.ofDigitChars_append, Nat.ofDigitChars_cons, Nat.ofDigitChars_nil] at hvalue
    by_cases hne : written = []
    · subst hne
      rw [Nat.ofDigitChars_nil, Nat.mul_zero, Nat.zero_add] at hvalue
      rw [decimal, ← hvalue, Nat.toDigits_of_lt_base hlt, hdigit, List.nil_append]
    · obtain ⟨hfront, hhead⟩ := h.of_concat hne
      have hwritten := ih hfront
      have hpos : 0 < Nat.ofDigitChars 10 written 0 := by
        refine Nat.pos_of_ne_zero fun hzero => hhead ?_
        rw [hwritten, hzero]
        rfl
      -- the last digit is added to a number other than zero
      have happend := Nat.toDigits_append_toDigits (b := 10) (by decide) hpos hlt
      rw [Nat.toDigits_of_lt_base hlt, hdigit, hvalue] at happend
      rw [decimal, ← happend]
      exact congrArg (· ++ [c]) hwritten

/-- **A number is written in one way**, the one without leading zeros. -/
theorem isDecimal_iff {value : ℕ} {written : List Char} :
    IsDecimal value written ↔ written = decimal value :=
  ⟨IsDecimal.eq_decimal, fun h => h ▸ isDecimal_decimal value⟩

/-- **Larger numbers do not take fewer digits.** -/
theorem length_decimal_mono : Monotone fun value => (decimal value).length := by
  intro a b h
  have hlt : b < 10 ^ (decimal b).length :=
    (Nat.length_toDigits_le_iff (by decide) Nat.length_toDigits_pos).1 le_rfl
  exact (Nat.length_toDigits_le_iff (by decide) Nat.length_toDigits_pos).2 (h.trans_lt hlt)

end Attest.Text
