import Mathlib
import Attest.Proofs.Decimal.Shortest
import Attest.Proofs.Json.Doubles

/-!
# Doubles in words

A double is named by a number that is rounded to it, with its sign and with a point or an exponent,
so that it is not read as an integer. Of the numbers that are rounded to it that is one with the
fewest digits.

The main statements are `IsLeading.exists_writes_layOut` and `names_floatDigits`.
-/

namespace Attest.Json

open Double Grammar

variable {digits : List Char} {position : ℤ} {negative : Bool}

/-! ## Laying out digits -/

/-- A numeral with a point or an exponent that a text writes. -/
structure Writes (negative : Bool) (magnitude : ℚ) (n : Numeral) (text : List Char) : Prop where
  numberOf : NumberOf n ((if negative then ['-'] else []) ++ text)
  negative_eq : n.negative = negative
  written_eq : n.written = magnitude
  not_integer : n.fraction ≠ none ∨ n.exponent ≠ none

theorem writes_intro {whole fraction exponent : List Char} {fraction? : Option (List Char)}
    {exponent? : Option (Bool × List Char)} (hwhole : Whole whole)
    (hfraction : FractionOf fraction? fraction) (hexponent : ExponentOf exponent? exponent)
    (h : fraction? ≠ none ∨ exponent? ≠ none) (negative : Bool) :
    Writes negative (Numeral.written ⟨negative, whole, fraction?, exponent?⟩)
      ⟨negative, whole, fraction?, exponent?⟩ (whole ++ fraction ++ exponent) := by
  refine ⟨?_, rfl, rfl, h⟩
  have hnumber := @NumberOf.intro ⟨negative, whole, fraction?, exponent?⟩ _ _ hwhole hfraction
    hexponent
  simpa using hnumber

/-- Digits of which the first is not zero. -/
structure IsLeading (digits : List Char) : Prop where
  isDigits : Digits digits
  head : digits.head? ≠ some '0'

theorem isLeading_decimal {value : ℕ} (h : 0 < value) : IsLeading (Text.decimal value) where
  isDigits := ⟨(Text.isDecimal_decimal value).ne_nil, (Text.isDecimal_decimal value).isDigit⟩
  head hzero := h.ne' (Text.eq_zero_of_head?_decimal hzero)

/-- Digits that begin a number and more of them. -/
theorem IsLeading.whole_append (h : IsLeading digits) {more : List Char}
    (hmore : ∀ c ∈ more, c.isDigit) : Whole (digits ++ more) := by
  refine ⟨⟨by simp [h.isDigits.1], fun c hc => ?_⟩, fun hzero => ?_⟩
  · exact (List.mem_append.1 hc).elim (h.isDigits.2 c) (hmore c)
  · rw [List.head?_append_of_ne_nil _ h.isDigits.1] at hzero
    exact absurd hzero h.head

/-- The digits in front of a position are the whole part of a number. -/
theorem IsLeading.whole_take (h : IsLeading digits) {count : ℕ} (hcount : 0 < count) :
    Whole (digits.take count) := by
  obtain ⟨⟨hne, hdigits⟩, hhead⟩ := h
  refine ⟨⟨fun hnil => ?_, fun c hc => hdigits c (List.mem_of_mem_take hc)⟩, fun hzero => ?_⟩
  · exact (List.take_eq_nil_iff.1 hnil).elim hcount.ne' hne
  · rw [List.head?_take, if_neg hcount.ne'] at hzero
    exact absurd hzero hhead

theorem IsLeading.drop (h : IsLeading digits) (count : ℕ) :
    ∀ c ∈ digits.drop count, c.isDigit := fun c hc => h.isDigits.2 c (List.mem_of_mem_drop hc)

theorem isDigit_replicate (count : ℕ) : ∀ c ∈ List.replicate count '0', c.isDigit := by
  intro c hc
  rw [List.eq_of_mem_replicate hc]
  rfl

/-- All digits are in front of the point, with zeros behind them. -/
theorem IsLeading.writes_padded (h : IsLeading digits) (negative : Bool) (zeros : ℕ) :
    Writes negative (Nat.ofDigitChars 10 digits 0 * 10 ^ zeros)
      ⟨negative, digits ++ List.replicate zeros '0', some ['0'], none⟩
      (digits ++ List.replicate zeros '0' ++ ['.', '0']) := by
  have hwrites := writes_intro (h.whole_append (isDigit_replicate zeros))
    (.some ⟨List.cons_ne_nil '0' [], isDigit_replicate 1⟩) .none (.inl (Option.some_ne_none _))
    negative
  have hvalue : Numeral.written ⟨negative, digits ++ List.replicate zeros '0', some ['0'], none⟩ =
      Nat.ofDigitChars 10 digits 0 * 10 ^ zeros := by
    have hdigits : digits ++ List.replicate zeros '0' ++ ['0'] =
        digits ++ List.replicate (zeros + 1) '0' := by
      rw [List.append_assoc, List.replicate_succ']
    change ((Nat.ofDigitChars 10 (digits ++ List.replicate zeros '0' ++ ['0']) 0 : ℕ) : ℚ) *
      10 ^ ((0 : ℤ) - 1) = _
    rw [hdigits, Nat.ofDigitChars_append, Nat.ofDigitChars_replicate_zero]
    push_cast
    ring
  rwa [hvalue, List.append_nil] at hwrites

/-- The point is among the digits. -/
theorem IsLeading.writes_pointed (h : IsLeading digits) (negative : Bool) {places : ℕ}
    (hpos : 0 < places) (hlt : places < digits.length) :
    Writes negative (Nat.ofDigitChars 10 digits 0 * 10 ^ ((places : ℤ) - digits.length))
      ⟨negative, digits.take places, some (digits.drop places), none⟩
      (digits.take places ++ '.' :: digits.drop places) := by
  have hne : digits.drop places ≠ [] := mt List.drop_eq_nil_iff.1 (not_le.2 hlt)
  have hwrites := writes_intro (h.whole_take hpos) (.some ⟨hne, h.drop places⟩) .none
    (.inl (Option.some_ne_none _)) negative
  have hvalue : Numeral.written ⟨negative, digits.take places, some (digits.drop places), none⟩ =
      Nat.ofDigitChars 10 digits 0 * 10 ^ ((places : ℤ) - digits.length) := by
    change ((Nat.ofDigitChars 10 (digits.take places ++ digits.drop places) 0 : ℕ) : ℚ) *
      10 ^ ((0 : ℤ) - (digits.drop places).length) = _
    rw [List.take_append_drop, List.length_drop]
    congr 2
    omega
  rwa [hvalue, List.append_nil] at hwrites

/-- All digits are after the point, with zeros in front of them. -/
theorem IsLeading.writes_below (h : IsLeading digits) (negative : Bool) (zeros : ℕ) :
    Writes negative (Nat.ofDigitChars 10 digits 0 * 10 ^ (-(zeros : ℤ) - digits.length))
      ⟨negative, ['0'], some (List.replicate zeros '0' ++ digits), none⟩
      ('0' :: '.' :: List.replicate zeros '0' ++ digits) := by
  have hdigits : ∀ c ∈ List.replicate zeros '0' ++ digits, c.isDigit := by
    intro c hc
    exact (List.mem_append.1 hc).elim (isDigit_replicate zeros c) (h.isDigits.2 c)
  have hwrites := @writes_intro ['0'] _ [] _ none (whole_decimal 0)
    (.some ⟨by simp [h.isDigits.1], hdigits⟩) .none (.inl (Option.some_ne_none _)) negative
  have hvalue : Numeral.written
      ⟨negative, ['0'], some (List.replicate zeros '0' ++ digits), none⟩ =
        Nat.ofDigitChars 10 digits 0 * 10 ^ (-(zeros : ℤ) - digits.length) := by
    change ((Nat.ofDigitChars 10 (List.replicate (zeros + 1) '0' ++ digits) 0 : ℕ) : ℚ) *
      10 ^ ((0 : ℤ) - (List.replicate zeros '0' ++ digits).length) = _
    rw [Nat.ofDigitChars_append, Nat.ofDigitChars_replicate_zero, Nat.mul_zero,
      List.length_append, List.length_replicate]
    congr 2
    push_cast
    ring
  rwa [hvalue, List.append_nil] at hwrites

/-- The value of an exponent is that of its digits with its sign. -/
theorem sign_mul_decimal (exponent : ℤ) :
    (if decide (exponent < 0) then -1 else 1) *
      (Nat.ofDigitChars 10 (Text.decimal exponent.natAbs) 0 : ℤ) = exponent := by
  rw [(Text.isDecimal_decimal exponent.natAbs).spells]
  rcases lt_or_ge exponent 0 with hneg | hnonneg
  · rw [decide_eq_true hneg]
    simp only [↓reduceIte]
    omega
  · rw [decide_eq_false (not_lt.2 hnonneg)]
    simp only [Bool.false_eq_true, ↓reduceIte]
    omega

/-- There is one digit in front of the point, and an exponent. -/
theorem IsLeading.exists_writes_scientific (h : IsLeading digits) (negative : Bool) (exponent : ℤ) :
    ∃ n, Writes negative (Nat.ofDigitChars 10 digits 0 * 10 ^ (exponent + 1 - digits.length)) n
      (digits.take 1 ++ (if digits.drop 1 = [] then [] else '.' :: digits.drop 1) ++ 'e' ::
        (if exponent < 0 then '-' else '+') :: Text.decimal exponent.natAbs) := by
  have hlength : 0 < digits.length := List.length_pos_of_ne_nil h.isDigits.1
  have hsign : SignOf (decide (exponent < 0)) [if exponent < 0 then '-' else '+'] := by
    rw [SignOf]
    split_ifs <;> simp_all
  have hexponent := @ExponentOf.some _ 'e' _ _ (.inl rfl) hsign
    ⟨(Text.isDecimal_decimal exponent.natAbs).ne_nil,
      (Text.isDecimal_decimal exponent.natAbs).isDigit⟩
  obtain ⟨fraction?, hfraction, hrest⟩ : ∃ fraction? : Option (List Char),
      FractionOf fraction? (if digits.drop 1 = [] then [] else '.' :: digits.drop 1) ∧
        fraction?.getD [] = digits.drop 1 := by
    split_ifs with hnil
    · exact ⟨none, .none, hnil.symm⟩
    · exact ⟨_, .some ⟨hnil, h.drop 1⟩, rfl⟩
  have hwrites := writes_intro (h.whole_take one_pos) hfraction hexponent
    (.inr (Option.some_ne_none _)) negative
  have hvalue : Numeral.written ⟨negative, digits.take 1, fraction?,
      some (decide (exponent < 0), Text.decimal exponent.natAbs)⟩ =
        Nat.ofDigitChars 10 digits 0 * 10 ^ (exponent + 1 - digits.length) := by
    rw [Numeral.written, Numeral.power]
    dsimp only
    rw [sign_mul_decimal, hrest, List.take_append_drop, List.length_drop]
    congr 2
    omega
  rw [hvalue] at hwrites
  exact ⟨_, hwrites⟩

/-- **Digits are laid out as a number** that is worth as much. -/
theorem IsLeading.exists_writes_layOut (h : IsLeading digits) (negative : Bool) (position : ℤ) :
    ∃ n, Writes negative (Nat.ofDigitChars 10 digits 0 * 10 ^ (position - digits.length)) n
      (layOut digits position) := by
  rw [layOut]
  split_ifs with hlarge hmiddle hsmall
  · obtain ⟨zeros, hzeros⟩ := Int.eq_ofNat_of_zero_le (sub_nonneg.2 hlarge.1)
    rw [hzeros, zpow_natCast, show position.toNat - digits.length = zeros by omega]
    exact ⟨_, h.writes_padded negative zeros⟩
  · obtain ⟨places, rfl⟩ := Int.eq_ofNat_of_zero_le hmiddle.1.le
    exact ⟨_, h.writes_pointed negative (by omega) (by omega)⟩
  · obtain ⟨zeros, hzeros⟩ := Int.eq_ofNat_of_zero_le (neg_nonneg.2 hsmall.2)
    rw [hzeros, Int.toNat_natCast, show position = -(zeros : ℤ) by omega]
    exact ⟨_, h.writes_below negative zeros⟩
  · have hwrites := h.exists_writes_scientific negative (position - 1)
    rwa [sub_add_cancel] at hwrites

/-! ## The words for a double -/

/-- A text that names a double: a number with the given sign that is rounded to it, has a point or
an exponent, and is worth a decimal with no more digits than any other that is rounded to it. -/
def Names (negative : Bool) (v : ℚ) (text : List Char) : Prop :=
  ∃ n, NumberOf n text ∧ n.negative = negative ∧ (n.fraction ≠ none ∨ n.exponent ≠ none) ∧
    nearest n.written = v ∧
    ∀ digits count : ℕ, ∀ e : ℤ, digits < 10 ^ count → nearest (digits * 10 ^ e) = v →
      ∃ least < 10 ^ count, ∃ exponent : ℤ, n.written = (least : ℕ) * 10 ^ exponent

/-- **A double is named by its digits**, with its sign in front. -/
theorem names_floatDigits {x : Float} {v : ℚ} (h : Stands x v) (negative : Bool) :
    Names negative v ((if negative then ['-'] else []) ++ floatDigits x) := by
  have hzero : (x == 0) = x.toModel.unpack.beq (.zero .positive) := rfl
  cases h with
  | zero h =>
    have hwords : floatDigits x = ['0', '.', '0'] := by
      rw [floatDigits, hzero, h]
      rfl
    rw [hwords]
    have hwrites := writes_intro (whole_decimal 0) (.some ⟨List.cons_ne_nil '0' [],
      isDigit_replicate 1⟩) .none (.inl (Option.some_ne_none _)) negative
    have hvalue : Numeral.written ⟨negative, Text.decimal 0, some ['0'], none⟩ = 0 := by
      change ((0 : ℕ) : ℚ) * _ = 0
      rw [Nat.cast_zero, zero_mul]
    rw [hvalue] at hwrites
    refine ⟨_, hwrites.numberOf, hwrites.negative_eq, hwrites.not_integer, ?_, ?_⟩
    · rw [hwrites.written_eq, nearest_zero]
    · intro digits count e _ _
      exact ⟨0, by positivity, 0, by rw [hwrites.written_eq, Nat.cast_zero, zero_mul]⟩
  | finite hpos h =>
    have hwords : floatDigits x = layOut (Text.decimal (Decimal.shortest x.toBits).digits)
        ((Text.decimal (Decimal.shortest x.toBits).digits).length +
          (Decimal.shortest x.toBits).exponent) := by
      rw [floatDigits, hzero, h]
      exact if_neg Bool.false_ne_true
    obtain ⟨hdigits, hnearest⟩ := Decimal.nearest_shortest h
    obtain ⟨n, hwrites⟩ := (isLeading_decimal hdigits).exists_writes_layOut negative
      ((Text.decimal (Decimal.shortest x.toBits).digits).length +
        (Decimal.shortest x.toBits).exponent)
    rw [(Text.isDecimal_decimal _).spells, add_sub_cancel_left] at hwrites
    rw [hwords]
    refine ⟨n, hwrites.numberOf, hwrites.negative_eq, hwrites.not_integer, ?_, ?_⟩
    · rw [hwrites.written_eq]
      exact hnearest
    · intro digits count e hless hsame
      exact ⟨_, Decimal.lt_of_nearest_eq h hless hsame, _, hwrites.written_eq⟩

theorem describe_floating (negative : Bool) (x : Float) :
    (NumberValue.floating negative x).describe = "floating point `" ++
      String.ofList ((if negative then ['-'] else []) ++ floatDigits x) ++ "`" := by
  have hsign : String.ofList (if negative then ['-'] else []) = if negative then "-" else "" := by
    split_ifs <;> rfl
  rw [String.ofList_append, hsign, ← String.append_assoc]
  rfl

end Attest.Json
