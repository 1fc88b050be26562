import Mathlib
import Attest.Proofs.Double.Storage

/-!
# The arithmetic of doubles

What an operation computes is the exact result, cut off after some bits, with a note on what has
been cut off; from that it is rounded to the nearest double, and what gets out of range becomes an
infinity. Enough bits are kept if the last one is not above the unit of the result.

The main statements are `rounds_roundWithAccuracy`, `rounds_toFloat`, `Stands.mul`, `Stands.div` and
`rounds_ofScientific`.
-/

namespace Attest.Double

open Float.Model Float.Model.UnpackedFloat

variable {x y : Float} {p q v : ℚ} {mantissa : ℕ} {exponent : ℤ}

/-! ## What is cut off -/

/-- Whether a significand with two more bits tells where a number lies: the first bit tells whether
at least half a unit has been cut off, and the second one whether anything has been cut off after
that. -/
structure Describes (em : ExtendedMantissa) (q : ℚ) : Prop where
  halves : ⌊2 * q⌋ = 2 * em.mantissa + em.roundBit.toNat
  sticky : em.stickyBit = true ↔ (⌊2 * q⌋ : ℚ) ≠ 2 * q

variable {em : ExtendedMantissa}

theorem Describes.floor (h : Describes em q) : ⌊q⌋ = em.mantissa := by
  obtain ⟨hlow, hhigh⟩ := Int.floor_eq_iff.1 h.halves
  have hbit : (em.roundBit.toNat : ℚ) ≤ 1 := by exact_mod_cast em.roundBit.toNat_le
  have hnonneg : (0 : ℚ) ≤ em.roundBit.toNat := Nat.cast_nonneg _
  push_cast at hlow hhigh
  rw [Int.floor_eq_iff]
  push_cast
  exact ⟨by linarith, by linarith⟩

/-- One more bit is cut off. -/
theorem Describes.shiftRightOne (h : Describes em q) : Describes em.shiftRightOne (q / 2) := by
  have hfloor := h.floor
  have hhalves := h.halves
  have hsticky := h.sticky
  obtain ⟨mantissa, roundBit, stickyBit⟩ := em
  dsimp only at hfloor hhalves hsticky
  have hdouble : 2 * (q / 2) = q := by ring
  refine ⟨?_, ?_⟩
  · rw [hdouble, hfloor, ExtendedMantissa.shiftRightOne]
    dsimp only
    have hbit : (mantissa % 2 != 0).toNat = mantissa % 2 := by
      rcases Nat.mod_two_eq_zero_or_one mantissa with hmod | hmod <;> rw [hmod] <;> rfl
    rw [hbit]
    omega
  · -- something is cut off behind the new bit if something was or if the old bit is set
    rw [hdouble, hfloor, ExtendedMantissa.shiftRightOne]
    dsimp only
    rw [hhalves] at hsticky
    rw [Bool.or_eq_true, hsticky]
    cases roundBit with
    | false =>
      simp only [Bool.false_eq_true, false_or, Bool.toNat_false]
      push_cast
      constructor
      · intro hne heq
        exact hne (by rw [← heq]; ring)
      · intro hne heq
        exact hne (by linarith)
    | true =>
      simp only [true_or, true_iff]
      intro heq
      have htwice : 2 * q = ((2 * mantissa : ℤ) : ℚ) := by rw [← heq]; push_cast; ring
      rw [htwice, Int.floor_intCast] at hhalves
      simp at hhalves

theorem Describes.shiftRight (h : Describes em q) (shift : ℕ) :
    Describes (em >>> shift) (q / 2 ^ shift) := by
  change Describes (shift.repeat ExtendedMantissa.shiftRightOne em) _
  induction shift with
  | zero => simpa [Nat.repeat] using h
  | succ shift ih =>
    rw [pow_succ, ← div_div]
    exact ih.shiftRightOne

/-- **The significand is rounded** to the nearest whole number. -/
theorem Describes.roundedMantissa (h : Describes em q) :
    (em.roundedMantissa : ℤ) = nearestInt q := by
  have hhalves := h.halves
  have hsticky := h.sticky
  obtain ⟨mantissa, roundBit, stickyBit⟩ := em
  dsimp only at hhalves hsticky
  obtain ⟨hlow, hhigh⟩ := Int.floor_eq_iff.1 hhalves
  rw [hhalves] at hsticky
  symm
  cases roundBit with
  | false =>
    rw [Bool.toNat_false] at *
    push_cast at hlow hhigh hsticky
    change nearestInt q = (Accuracy.roundToNearestEven mantissa _ : ℤ)
    cases stickyBit with
    | false =>
      have hexact : 2 * (mantissa : ℚ) + 0 = 2 * q := by simpa using hsticky
      have hwhole : q = (mantissa : ℤ) := by
        push_cast
        linarith
      rw [hwhole]
      exact nearestInt_intCast mantissa
    | true =>
      change nearestInt q = (mantissa : ℤ)
      refine nearestInt_of_abs_lt (abs_lt.2 ?_)
      push_cast
      exact ⟨by linarith, by linarith⟩
  | true =>
    rw [Bool.toNat_true] at *
    push_cast at hlow hhigh hsticky
    cases stickyBit with
    | false =>
      -- half-way between two whole numbers
      have hexact : 2 * (mantissa : ℚ) + 1 = 2 * q := by simpa using hsticky
      change nearestInt q = ((mantissa + mantissa % 2 : ℕ) : ℤ)
      refine nearestInt_of_abs_eq ?_ (Int.even_iff.2 (by omega))
      rcases Nat.mod_two_eq_zero_or_one mantissa with heven | hodd
      · rw [heven, show q = mantissa + 1 / 2 by linarith]
        push_cast
        norm_num
      · rw [hodd, show q = mantissa + 1 / 2 by linarith]
        push_cast
        norm_num
    | true =>
      have hne : 2 * (mantissa : ℚ) + 1 ≠ 2 * q := by simpa using hsticky
      have hlt := hlow.lt_of_ne hne
      change nearestInt q = ((mantissa + 1 : ℕ) : ℤ)
      refine nearestInt_of_abs_lt (abs_lt.2 ?_)
      push_cast
      exact ⟨by linarith, by linarith⟩

/-! ## What the notes say at first -/

theorem describes_exact (mantissa : ℕ) :
    Describes (.ofMantissaAndAccuracy mantissa .exact) mantissa := by
  have hfloor : ⌊(2 * (mantissa : ℚ))⌋ = 2 * mantissa := by
    exact_mod_cast Int.floor_natCast (R := ℚ) (2 * mantissa)
  refine ⟨?_, ?_⟩
  · rw [hfloor]
    rfl
  · rw [hfloor]
    simp [ExtendedMantissa.ofMantissaAndAccuracy]

/-- The notes compare a remainder with half the denominator. -/
theorem describes_quotient (whole : ℕ) {rest denominator : ℕ} {roundBit stickyBit : Bool}
    (h : 0 < denominator) (hlow : roundBit.toNat * denominator ≤ 2 * rest)
    (hhigh : 2 * rest < (roundBit.toNat + 1) * denominator)
    (hsticky : stickyBit = true ↔ roundBit.toNat * denominator ≠ 2 * rest) :
    Describes ⟨whole, roundBit, stickyBit⟩ (whole + rest / denominator) := by
  have hden : (0 : ℚ) < denominator := Nat.cast_pos.2 h
  have hlow' : (roundBit.toNat : ℚ) * denominator ≤ 2 * rest := by exact_mod_cast hlow
  have hhigh' : 2 * (rest : ℚ) < (roundBit.toNat + 1) * denominator := by exact_mod_cast hhigh
  have hexact : (roundBit.toNat * denominator : ℚ) = 2 * rest ↔
      roundBit.toNat * denominator = 2 * rest := by norm_cast
  rw [← le_div_iff₀ hden, mul_div_assoc] at hlow'
  rw [← div_lt_iff₀ hden, mul_div_assoc] at hhigh'
  rw [← eq_div_iff hden.ne', mul_div_assoc] at hexact
  have hfloor : ⌊2 * ((whole : ℚ) + rest / denominator)⌋ = 2 * whole + roundBit.toNat := by
    rw [Int.floor_eq_iff]
    push_cast
    exact ⟨by linarith, by linarith⟩
  refine ⟨hfloor, ?_⟩
  rw [hfloor, hsticky, not_iff_not, ← hexact]
  push_cast
  constructor <;> intro heq <;> linarith

/-- A quotient with remainder tells where the fraction lies. -/
theorem describes_fraction (numerator : ℕ) {denominator : ℕ} (h : 0 < denominator) :
    Describes (.ofMantissaAndAccuracy (numerator / denominator)
      (accuracyOfFraction (numerator % denominator) denominator))
      (numerator / denominator : ℚ) := by
  have hden : (0 : ℚ) < denominator := Nat.cast_pos.2 h
  have hmod := Nat.mod_lt numerator h
  have hdiv : (numerator : ℚ) = denominator * (numerator / denominator : ℕ) +
      (numerator % denominator : ℕ) := by
    exact_mod_cast (Nat.div_add_mod numerator denominator).symm
  rw [hdiv, add_div, mul_div_cancel_left₀ _ hden.ne']
  generalize numerator / denominator = whole
  generalize numerator % denominator = rest at hmod
  rw [accuracyOfFraction]
  split_ifs with hzero
  · rw [hzero, Nat.cast_zero, zero_div, add_zero]
    exact describes_exact whole
  rcases lt_trichotomy (2 * rest) denominator with hlt | heq | hgt
  · rw [Nat.compare_eq_lt.2 hlt]
    exact describes_quotient whole h (by simp) (by simpa using hlt) (by simp; omega)
  · rw [Nat.compare_eq_eq.2 heq]
    exact describes_quotient whole h (by simp [heq]) (by simp; omega) (by simp [heq])
  · rw [Nat.compare_eq_gt.2 hgt]
    exact describes_quotient whole h (by simp; omega) (by simp; omega) (by simp; omega)

/-! ## Rounding -/

/-- The exponent of a significand with all bits is that of the units of the number. -/
theorem targetExponent_of_pos (hpos : 0 < mantissa) (hlow : mantissa * 2 ^ exponent ≤ q)
    (hhigh : q < (mantissa + 1) * 2 ^ exponent) :
    Format.binary64.targetExponent (totalExponent mantissa exponent) = unitExponent q := by
  have hunit := two_zpow_pos exponent
  have hbelow : (2 : ℚ) ^ mantissa.log2 ≤ mantissa := by
    exact_mod_cast Nat.log2_self_le hpos.ne'
  have habove : (mantissa : ℚ) + 1 ≤ 2 ^ (mantissa.log2 + 1) := by
    exact_mod_cast Nat.lt_log2_self
  change max ((mantissa.log2 : ℤ) + 1 + exponent - 53) (-1074) = unitExponent q
  rw [unitExponent_eq (e := mantissa.log2 + exponent)]
  · congr 1
    ring
  · rw [zpow_add₀ two_ne_zero, zpow_natCast]
    exact (mul_le_mul_of_nonneg_right hbelow hunit.le).trans hlow
  · rw [show (mantissa.log2 : ℤ) + exponent + 1 = (mantissa.log2 + 1 : ℕ) + exponent by
      push_cast; ring, zpow_add₀ two_ne_zero, zpow_natCast]
    exact hhigh.trans_le (mul_le_mul_of_nonneg_right habove hunit.le)

/-- The exponent to which a significand is shifted is that of the units of the number. -/
theorem targetExponent_eq (hq : 0 < q) (hfloor : ⌊q / 2 ^ exponent⌋ = mantissa)
    (hfine : exponent ≤ unitExponent q) :
    Format.binary64.targetExponent (totalExponent mantissa exponent) = unitExponent q := by
  have hunit := two_zpow_pos exponent
  obtain ⟨hlow, hhigh⟩ := Int.floor_eq_iff.1 hfloor
  rw [le_div_iff₀ hunit] at hlow
  rw [div_lt_iff₀ hunit] at hhigh
  push_cast at hlow hhigh
  rcases Nat.eq_zero_or_pos mantissa with rfl | hpos
  · -- a number below its units has the smallest ones
    have hleast : unitExponent q = -1074 := by
      by_contra hne
      have hbits := units_le hq hne
      have hpow : (2 : ℚ) ^ exponent ≤ 2 ^ unitExponent q := zpow_le_zpow_right₀ one_le_two hfine
      have := two_zpow_pos (unitExponent q)
      rw [Nat.cast_zero, zero_add, one_mul] at hhigh
      linarith
    rw [hleast] at hfine ⊢
    change max ((0 : ℤ) + 1 + exponent - 53) (-1074) = -1074
    omega
  · exact targetExponent_of_pos hpos hlow hhigh

/-- A significand that rounding has made one bit longer is shortened again. -/
theorem shiftToTargetExponent_exact (hle : mantissa ≤ 2 ^ 53) (hexponent : -1074 ≤ exponent)
    (hfull : 2 ^ 52 ≤ mantissa ∨ exponent = -1074) :
    ∃ significand last, (shiftToTargetExponent .binary64 mantissa exponent .exact).1.mantissa =
        significand ∧ (shiftToTargetExponent .binary64 mantissa exponent .exact).2 = last ∧
      Stored significand last ∧ (significand * 2 ^ last : ℚ) = mantissa * 2 ^ exponent := by
  refine ⟨_, _, rfl, rfl, ?_⟩
  rw [shiftToTargetExponent, shiftToExponent]
  dsimp only
  have htarget : Format.binary64.targetExponent (totalExponent mantissa exponent) =
      max ((mantissa.log2 : ℤ) + 1 + exponent - 53) (-1074) := rfl
  rcases hle.lt_or_eq with hlt | rfl
  · have hlog : mantissa.log2 ≤ 52 := by
      rcases Nat.eq_zero_or_pos mantissa with rfl | hpos
      · exact Nat.zero_le _
      · exact Nat.lt_succ_iff.1 ((Nat.log2_lt hpos.ne').2 hlt)
    have hshift : (Format.binary64.targetExponent (totalExponent mantissa exponent) -
        exponent).toNat = 0 := by
      rw [htarget]
      omega
    rw [hshift, Nat.cast_zero, add_zero]
    exact ⟨⟨hlt, hexponent, hfull⟩, rfl⟩
  · have hshift : (Format.binary64.targetExponent (totalExponent (2 ^ 53) exponent) -
        exponent).toNat = 1 := by
      rw [htarget, Nat.log2_two_pow]
      omega
    rw [hshift]
    change Stored (2 ^ 53 / 2) _ ∧ ((2 ^ 53 / 2 : ℕ) : ℚ) * _ = _
    refine ⟨⟨by norm_num, by omega, .inl (by norm_num)⟩, ?_⟩
    rw [Nat.cast_one, zpow_add₀ two_ne_zero]
    push_cast
    ring

/-- **What is described with enough bits is rounded to the nearest double.** -/
theorem rounds_roundWithAccuracy {accuracy : Accuracy} (hq : 0 < q)
    (h : Describes (.ofMantissaAndAccuracy mantissa accuracy) (q / 2 ^ exponent))
    (hfine : exponent ≤ unitExponent q) :
    Rounds (.ofModel (.pack (roundWithAccuracy .binary64 .positive mantissa exponent accuracy)))
      q := by
  obtain ⟨shift, hshift⟩ := Int.eq_ofNat_of_zero_le (sub_nonneg.2 hfine)
  have hmantissa : (ExtendedMantissa.ofMantissaAndAccuracy mantissa accuracy).mantissa =
      mantissa := by
    fun_cases ExtendedMantissa.ofMantissaAndAccuracy mantissa accuracy <;> rfl
  have hfloor := h.floor
  rw [hmantissa] at hfloor
  have htarget := targetExponent_eq hq hfloor hfine
  have hfirst : shiftToTargetExponent .binary64 mantissa exponent accuracy =
      (ExtendedMantissa.ofMantissaAndAccuracy mantissa accuracy >>> shift, unitExponent q) := by
    rw [shiftToTargetExponent, shiftToExponent, htarget, hshift, Int.toNat_natCast]
    congr 1
    omega
  have hrounded := (h.shiftRight shift).roundedMantissa
  rw [div_div, ← zpow_natCast, ← zpow_add₀ two_ne_zero,
    show exponent + (shift : ℤ) = unitExponent q by omega] at hrounded
  rw [roundWithAccuracy, hfirst]
  dsimp only
  generalize ExtendedMantissa.roundedMantissa _ = rounded at hrounded
  have hnearest : nearest q = rounded * 2 ^ unitExponent q := by
    rw [nearest, ← hrounded, Int.cast_natCast]
  have hle : rounded ≤ 2 ^ 53 := by
    have := nearestInt_div_le q
    omega
  have hfull : 2 ^ 52 ≤ rounded ∨ unitExponent q = -1074 := by
    by_cases hunit : unitExponent q = -1074
    · exact .inr hunit
    · have := le_nearestInt_div hq hunit
      exact .inl (by omega)
  obtain ⟨significand, last, hsignificand, hlast, hstored, hsame⟩ :=
    shiftToTargetExponent_exact hle (neg_le_unitExponent q) hfull
  simp only [hsignificand, hlast]
  rw [← hsame] at hnearest
  split_ifs with hzero
  · rw [hzero, Nat.cast_zero, zero_mul] at hnearest
    refine ⟨fun _ => ?_, fun hge => absurd hge ?_⟩
    · rw [hnearest]
      exact .zero rfl
    · rw [hnearest]
      norm_num
  · exact hstored.rounds _ hnearest

/-! ## The operations -/

theorem rounds_zero : Rounds (.ofModel (.pack (.zero .positive))) 0 where
  stands _ := by
    rw [nearest_zero]
    exact .zero rfl
  infinite hge := by
    rw [nearest_zero] at hge
    exact absurd hge (not_le.2 (by positivity))

theorem rounds_round (hpos : 0 < mantissa) (exponent : ℤ) :
    Rounds (.ofModel (.pack (round .binary64 .positive mantissa exponent)))
      (mantissa * 2 ^ exponent) := by
  have hunit := two_zpow_pos exponent
  have hcast : (0 : ℚ) < mantissa := Nat.cast_pos.2 hpos
  have htarget := targetExponent_of_pos (q := mantissa * 2 ^ exponent) hpos le_rfl (by linarith)
  rw [UnpackedFloat.round, decreaseExponent]
  dsimp only
  rw [htarget]
  generalize hshift : (exponent - unitExponent (mantissa * 2 ^ exponent)).toNat = shift
  refine rounds_roundWithAccuracy (mul_pos hcast hunit) ?_ (by omega)
  have hexact : (mantissa * 2 ^ exponent : ℚ) / 2 ^ (exponent - shift) =
      (mantissa <<< shift : ℕ) := by
    rw [Nat.shiftLeft_eq, mul_div_assoc, ← zpow_sub₀ two_ne_zero, sub_sub_cancel, zpow_natCast]
    push_cast
    rfl
  rw [hexact]
  exact describes_exact _

/-- **A whole number becomes the nearest double.** -/
theorem rounds_toFloat (n : UInt64) : Rounds n.toFloat n.toNat := by
  change Rounds (.ofModel (.pack (normalize .binary64 (n.toNat : ℤ) 0 .positive))) n.toNat
  rw [UnpackedFloat.normalize]
  rcases Nat.eq_zero_or_pos n.toNat with hzero | hpos
  · rw [hzero, Nat.cast_zero]
    exact rounds_zero
  · rw [show compare (n.toNat : ℤ) 0 = .gt from compare_gt_iff_gt.2 (by omega)]
    dsimp only
    rw [Int.toNat_natCast]
    simpa using rounds_round hpos 0

theorem rounds_mul_finite {n : ℕ} {e : ℤ} (hmantissa : 0 < mantissa) (hn : 0 < n)
    (hfine : 2 ^ 52 ≤ mantissa * n ∨ exponent + e ≤ -1074) :
    Rounds (.ofModel (.pack (mul .binary64 (.finite .positive mantissa exponent hmantissa)
      (.finite .positive n e hn)))) (mantissa * 2 ^ exponent * (n * 2 ^ e)) := by
  have hproduct : (mantissa * 2 ^ exponent * (n * 2 ^ e) : ℚ) =
      (mantissa * n : ℕ) * 2 ^ (exponent + e) := by
    rw [zpow_add₀ two_ne_zero]
    push_cast
    ring
  have hunit := two_zpow_pos (exponent + e)
  have hpos : (0 : ℚ) < (mantissa * n : ℕ) := Nat.cast_pos.2 (Nat.mul_pos hmantissa hn)
  rw [hproduct]
  refine rounds_roundWithAccuracy (mul_pos hpos hunit) ?_ ?_
  · rw [mul_div_cancel_right₀ _ hunit.ne']
    exact describes_exact _
  · rcases hfine with hbits | hleast
    · refine le_unitExponent (mul_le_mul_of_nonneg_right ?_ hunit.le)
      exact_mod_cast hbits
    · exact hleast.trans (neg_le_unitExponent _)

/-- **A product is rounded to the nearest double.** -/
theorem Stands.mul (hx : Stands x v) (hy : Stands y p) : Rounds (x * y) (v * p) := by
  change Rounds (.ofModel (.pack (UnpackedFloat.mul .binary64 x.toModel.unpack y.toModel.unpack))) _
  cases hx with
  | zero hx =>
    rw [hx, zero_mul]
    cases hy with
    | zero hy => rw [hy]; exact rounds_zero
    | finite _ hy => rw [hy]; exact rounds_zero
  | @finite mantissa exponent hmantissa hx =>
    rw [hx]
    cases hy with
    | zero hy =>
      rw [hy, mul_zero]
      exact rounds_zero
    | @finite n e hn hy =>
      obtain ⟨hstored, -⟩ := stored_of_unpack hx
      obtain ⟨hstored', -⟩ := stored_of_unpack hy
      rw [hy]
      refine rounds_mul_finite hmantissa hn ?_
      rcases hstored.full with hfull | hleast
      · exact .inl (hfull.trans (Nat.le_mul_of_pos_right _ hn))
      · rcases hstored'.full with hfull' | hleast'
        · exact .inl (hfull'.trans (Nat.le_mul_of_pos_left _ hmantissa))
        · exact .inr (by omega)

theorem rounds_div_finite {n : ℕ} {e : ℤ} (hmantissa : 0 < mantissa) (hn : 0 < n) :
    Rounds (.ofModel (.pack (div .binary64 (.finite .positive mantissa exponent hmantissa)
      (.finite .positive n e hn)))) (mantissa * 2 ^ exponent / (n * 2 ^ e)) := by
  have hdenominator : (0 : ℚ) < n := Nat.cast_pos.2 hn
  have hnumerator : (0 : ℚ) < mantissa := Nat.cast_pos.2 hmantissa
  have hunit := two_zpow_pos exponent
  have hunit' := two_zpow_pos e
  have hpos : (0 : ℚ) < mantissa * 2 ^ exponent / (n * 2 ^ e) := by positivity
  have hfine : Format.binary64.targetExponent (totalExponent mantissa exponent - totalExponent n e) ≤
      unitExponent (mantissa * 2 ^ exponent / (n * 2 ^ e)) := by
    -- the quotient has at least as many bits as the difference says, less one
    have hlow : (2 : ℚ) ^ mantissa.log2 ≤ mantissa := by
      exact_mod_cast Nat.log2_self_le hmantissa.ne'
    have hhigh : (n : ℚ) ≤ 2 ^ (n.log2 + 1) := by
      exact_mod_cast Nat.lt_log2_self.le
    have hlog : (mantissa.log2 + exponent) - (n.log2 + 1 + e) ≤
        Int.log 2 ((mantissa * 2 ^ exponent / (n * 2 ^ e) : ℚ)) := by
      refine (Int.zpow_le_iff_le_log one_lt_two hpos).1 ?_
      rw [Nat.cast_ofNat, zpow_sub₀ two_ne_zero, zpow_add₀ two_ne_zero, zpow_add₀ two_ne_zero]
      refine div_le_div₀ (by positivity) (mul_le_mul_of_nonneg_right ?_ hunit.le) (by positivity)
        (mul_le_mul_of_nonneg_right ?_ hunit'.le)
      · exact_mod_cast hlow
      · exact_mod_cast hhigh
    change max ((mantissa.log2 : ℤ) + 1 + exponent - (n.log2 + 1 + e) - 53) (-1074) ≤ _
    rw [unitExponent]
    omega
  rw [UnpackedFloat.div, divCore]
  dsimp only
  generalize Format.binary64.targetExponent _ = target at hfine
  generalize hlast : min (exponent - e) target = last
  obtain ⟨shift, hshift⟩ := Int.eq_ofNat_of_zero_le (show 0 ≤ exponent - e - last by omega)
  rw [hshift, Int.toNat_natCast]
  refine rounds_roundWithAccuracy hpos ?_ (by omega)
  have hquotient : (mantissa * 2 ^ exponent / (n * 2 ^ e) : ℚ) / 2 ^ last =
      (mantissa <<< shift : ℕ) / n := by
    rw [Nat.shiftLeft_eq, show exponent = e + last + shift by omega, zpow_add₀ two_ne_zero,
      zpow_add₀ two_ne_zero, zpow_natCast]
    have := two_zpow_pos last
    push_cast
    field_simp
  rw [hquotient]
  exact describes_fraction _ hn

/-- **A quotient is rounded to the nearest double.** -/
theorem Stands.div (hx : Stands x v) (hy : Stands y p) (hp : p ≠ 0) : Rounds (x / y) (v / p) := by
  change Rounds (.ofModel (.pack (UnpackedFloat.div .binary64 x.toModel.unpack y.toModel.unpack))) _
  cases hy with
  | zero => exact absurd rfl hp
  | finite hn hy =>
    rw [hy]
    cases hx with
    | zero hx => rw [hx, zero_div]; exact rounds_zero
    | finite hmantissa hx => rw [hx]; exact rounds_div_finite hmantissa hn

/-! ## Powers of ten -/

/-- The small powers are tabled. The table agrees with the general rule. -/
theorem ofScientific_one (e : ℕ) :
    Float.ofScientific 1 false e = .ofModel (.ofScientific 1 e) := by
  rcases Nat.lt_or_ge e 23 with hlt | hge
  · have htable : ∀ e : Fin 23, Float.ofScientific 1 false e = .ofModel (.ofScientific 1 e) := by
      decide +kernel
    exact htable ⟨e, hlt⟩
  · rw [Float.ofScientific, dif_neg (by omega)]
    rfl

/-- **A power of ten becomes the nearest double.** -/
theorem rounds_ofScientific {e : ℕ} (h : e ≤ 2048) :
    Rounds (Float.ofScientific 1 false e) (10 ^ e) := by
  rw [ofScientific_one]
  change Rounds (.ofModel (.pack (UnpackedFloat.ofScientific .binary64 1 e))) _
  rw [UnpackedFloat.ofScientific, dif_neg one_ne_zero, if_neg (by norm_num; omega),
    if_neg (not_lt.2 ((neg_nonpos.2 (by positivity)).trans (Int.natCast_nonneg e))),
    if_pos (Int.natCast_nonneg e)]
  have hrounds := @rounds_mul_finite (1 <<< 53) (-53) (10 ^ e) 0 (by decide) (by positivity)
    (.inl ((by decide : 2 ^ 52 ≤ 1 <<< 53).trans (Nat.le_mul_of_pos_right _ (by positivity))))
  have hone : (((1 <<< 53 : ℕ) : ℚ) * 2 ^ (-53 : ℤ) * ((10 ^ e : ℕ) * 2 ^ (0 : ℤ))) = 10 ^ e := by
    rw [Nat.shiftLeft_eq]
    push_cast
    norm_num
  rw [hone] at hrounds
  exact hrounds

end Attest.Double
