import Mathlib
import Attest.Json.Number
import Attest.Proofs.Json.Grammar
import Attest.Proofs.Text.Decimal

/-!
# The values of numbers

A number without point and exponent stands for an integer, as long as that fits into 64 bits. Since
numbers are written without leading zeros, there is one way to write such an integer, and it is named
just as it is written.

The main statements are `Numeral.integer?_eq_some_iff` and `Grammar.exists_numberOf_integer_iff`.
-/

namespace Attest.Json

theorem decimalValue_eq (digits : List Char) :
    decimalValue digits = Nat.ofDigitChars 10 digits 0 :=
  Text.foldl_eq_ofDigitChars digits

theorem decimalValue_decimal (value : ℕ) : decimalValue (Text.decimal value) = value := by
  rw [decimalValue_eq, (Text.isDecimal_decimal value).spells]

/-- **What stands for an integer**: digits without point and exponent, with a value that fits into
64 bits. A zero with a minus is none. -/
theorem Numeral.integer?_eq_some_iff {n : Numeral} {value : ℤ} :
    n.integer? = some value ↔ n.fraction = none ∧ n.exponent = none ∧
      value.natAbs = decimalValue n.whole ∧ (n.negative = true ↔ value < 0) ∧
      -2 ^ 63 ≤ value ∧ value < 2 ^ 64 := by
  have hmin : Int64.minValue.toInt = -2 ^ 63 := rfl
  have hsize : UInt64.size = 2 ^ 64 := rfl
  rw [integer?, hmin, hsize]
  obtain ⟨negative, whole, fraction, exponent⟩ := n
  dsimp only
  rcases fraction with _ | fraction
  · rcases exponent with _ | exponent
    · cases negative with
      | false =>
        simp only [Option.isSome_none, Bool.false_eq_true, or_self, ↓reduceIte, Bool.not_false,
          Option.ite_none_right_eq_some, Option.some.injEq, false_iff, not_lt, true_and]
        omega
      | true =>
        simp only [Option.isSome_none, Bool.false_eq_true, or_self, ↓reduceIte, Bool.not_true,
          Option.ite_none_right_eq_some, Option.some.injEq, true_iff, true_and]
        omega
    · simp
  · simp

theorem Numeral.value?_eq_integer_iff {n : Numeral} {value : ℤ} :
    n.value? = some (.integer value) ↔ n.integer? = some value := by
  rw [value?]
  cases n.integer? with
  | none => simp
  | some other => simp

/-! ## Integers in writing -/

/-- An integer as it is written. -/
def signed (value : ℤ) : List Char :=
  (if value < 0 then ['-'] else []) ++ Text.decimal value.natAbs

theorem describe_integer (value : ℤ) :
    (NumberValue.integer value).describe = "integer `" ++ String.ofList (signed value) ++ "`" := by
  have hsign : String.ofList (if value < 0 then ['-'] else []) = if value < 0 then "-" else "" := by
    split_ifs <;> rfl
  rw [signed, String.ofList_append, hsign, ← String.append_assoc]
  rfl

namespace Grammar

/-- The digits in front of the point are a number in decimal. -/
theorem whole_iff {w : List Char} : Whole w ↔ w = Text.decimal (decimalValue w) := by
  rw [← Text.isDecimal_iff]
  refine ⟨fun h => ⟨h.1.1, h.1.2, (decimalValue_eq w).symm, h.2⟩, fun h => ?_⟩
  exact ⟨⟨h.ne_nil, h.isDigit⟩, h.leading⟩

theorem whole_decimal (value : ℕ) : Whole (Text.decimal value) := by
  rw [whole_iff, decimalValue_decimal]

/-- **The numbers that stand for an integer** are those that are written as one that fits into 64
bits. -/
theorem exists_numberOf_integer_iff {w : List Char} {value : ℤ} :
    (∃ n, NumberOf n w ∧ n.value? = some (.integer value)) ↔
      w = signed value ∧ -2 ^ 63 ≤ value ∧ value < 2 ^ 64 := by
  refine ⟨?_, ?_⟩
  · rintro ⟨⟨negative, whole, fraction, exponent⟩, hw, hvalue⟩
    obtain ⟨rfl, rfl, habs, hminus, hrange⟩ :=
      Numeral.integer?_eq_some_iff.1 (Numeral.value?_eq_integer_iff.1 hvalue)
    clear hvalue
    obtain @⟨_, _, hwhole, hfraction, hexponent⟩ := hw
    cases hfraction
    cases hexponent
    refine ⟨?_, hrange⟩
    dsimp only at habs hminus hwhole ⊢
    rw [List.append_nil, List.append_nil, signed, habs, ← whole_iff.1 hwhole]
    exact congrArg (· ++ whole) (if_congr hminus rfl rfl)
  · rintro ⟨rfl, hrange⟩
    have hwhole := whole_decimal value.natAbs
    refine ⟨⟨decide (value < 0), Text.decimal value.natAbs, none, none⟩, ?_, ?_⟩
    · have hnumber := @NumberOf.intro ⟨decide (value < 0), Text.decimal value.natAbs, none, none⟩
        _ _ hwhole .none .none
      simpa [signed] using hnumber
    · rw [Numeral.value?_eq_integer_iff, Numeral.integer?_eq_some_iff]
      exact ⟨rfl, rfl, (decimalValue_decimal _).symm, decide_eq_true_iff, hrange⟩

end Grammar

end Attest.Json
