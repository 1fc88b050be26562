import Mathlib

/-!
# Rounding to doubles

A double that is not negative is a significand of at most 53 bits times a power of two, and that
power is at least `2 ^ -1074`. Between two powers of two the doubles lie in a grid, and a rational
number is rounded to the nearest point of the grid that belongs to its own size; of two it takes the
one with the even significand. No other double is nearer. Here there is no greatest double; what
rounds below `2 ^ 1024` is the number in range.

The main statements are `abs_sub_nearest_le`, `nearest_eq_self` and `nearest_lt_iff`.
-/

namespace Attest.Double

/-- The whole number nearest to a rational number, and of two the even one. -/
def nearestInt (q : ℚ) : ℤ := if Int.fract q = 1 / 2 then ⌊q⌋ + ⌊q⌋ % 2 else round q

/-- The exponent of the last bit of the doubles that are as large as a rational number. -/
def unitExponent (q : ℚ) : ℤ := max (Int.log 2 q - 52) (-1074)

/-- The double nearest to a rational number that is not negative, if there were no greatest one. -/
def nearest (q : ℚ) : ℚ := nearestInt (q / 2 ^ unitExponent q) * 2 ^ unitExponent q

/-- Whether a number is a double, if there were no greatest one. -/
def IsDouble (v : ℚ) : Prop :=
  ∃ (significand : ℕ) (exponent : ℤ), significand < 2 ^ 53 ∧ -1074 ≤ exponent ∧
    v = significand * 2 ^ exponent

variable {q v : ℚ} {n : ℤ}

/-! ## Whole numbers -/

theorem nearestInt_intCast (n : ℤ) : nearestInt n = n := by
  rw [nearestInt, Int.fract_intCast, if_neg (by norm_num), round_intCast]

theorem nearestInt_of_abs_lt (h : |q - n| < 1 / 2) : nearestInt q = n := by
  obtain ⟨hlow, hhigh⟩ := abs_lt.1 h
  have hround : round q = n := round_eq_iff.2 ⟨by linarith, by linarith⟩
  have hhalf : Int.fract q ≠ 1 / 2 := by
    intro hfract
    have hdist := abs_sub_round_eq_min q
    rw [hfract, hround] at hdist
    norm_num at hdist
    linarith
  rw [nearestInt, if_neg hhalf, hround]

/-- Half-way between two whole numbers, the even one is nearest. -/
theorem nearestInt_of_abs_eq (h : |q - n| = 1 / 2) (heven : Even n) : nearestInt q = n := by
  rcases (abs_eq (by norm_num)).1 h with habove | hbelow
  · have hfloor : ⌊q⌋ = n := Int.floor_eq_iff.2 ⟨by linarith, by linarith⟩
    have hhalf : Int.fract q = 1 / 2 := by rw [Int.fract, hfloor, habove]
    rw [nearestInt, if_pos hhalf, hfloor, Int.even_iff.1 heven, add_zero]
  · have hfloor : ⌊q⌋ = n - 1 := by
      rw [Int.floor_eq_iff]
      push_cast
      exact ⟨by linarith, by linarith⟩
    have hhalf : Int.fract q = 1 / 2 := by
      rw [Int.fract, hfloor]
      push_cast
      linarith
    rw [nearestInt, if_pos hhalf, hfloor]
    have := Int.even_iff.1 heven
    omega

/-- **No whole number is nearer.** -/
theorem abs_sub_nearestInt_le (q : ℚ) (n : ℤ) : |q - nearestInt q| ≤ |q - n| := by
  refine le_trans ?_ (round_le q n)
  rw [nearestInt]
  split_ifs with hhalf
  · have hdist := abs_sub_round_eq_min q
    have hfract : Int.fract q = q - ⌊q⌋ := rfl
    rw [hhalf] at hdist hfract
    rw [hdist]
    rcases Int.emod_two_eq ⌊q⌋ with hzero | hone
    · rw [hzero, add_zero, ← hfract]
      norm_num
    · rw [hone]
      push_cast
      rw [show q - (⌊q⌋ + 1) = -(1 / 2) by linarith]
      norm_num
  · exact le_rfl

theorem abs_sub_nearestInt_le_half (q : ℚ) : |q - nearestInt q| ≤ 1 / 2 :=
  (abs_sub_nearestInt_le q (round q)).trans (abs_sub_round q)

/-- A whole number that is not above stays not above when the other is rounded. -/
theorem le_nearestInt (h : (n : ℚ) ≤ q) : n ≤ nearestInt q := by
  by_contra hlt
  have hstep : (nearestInt q : ℚ) + 1 ≤ n := by exact_mod_cast Int.lt_iff_add_one_le.1 (not_le.1 hlt)
  have hdist := abs_sub_nearestInt_le q n
  rw [abs_of_nonneg (by linarith), abs_of_nonneg (by linarith)] at hdist
  linarith

theorem nearestInt_le (h : q ≤ n) : nearestInt q ≤ n := by
  by_contra hlt
  have hstep : (n : ℚ) + 1 ≤ nearestInt q := by exact_mod_cast Int.lt_iff_add_one_le.1 (not_le.1 hlt)
  have hdist := abs_sub_nearestInt_le q n
  rw [abs_of_nonpos (by linarith), abs_of_nonpos (by linarith)] at hdist
  linarith

/-! ## The grid of a number -/

theorem two_zpow_pos (e : ℤ) : (0 : ℚ) < 2 ^ e := zpow_pos two_pos e

theorem neg_le_unitExponent (q : ℚ) : -1074 ≤ unitExponent q := le_max_right _ _

/-- A number is below `2 ^ 53` of its units. -/
theorem lt_units (q : ℚ) : q < 2 ^ 53 * 2 ^ unitExponent q := by
  have hlog : q < (2 : ℚ) ^ (Int.log 2 q + 1) := by
    exact_mod_cast Int.lt_zpow_succ_log_self (R := ℚ) one_lt_two q
  refine hlog.trans_le ?_
  rw [← zpow_natCast, ← zpow_add₀ two_ne_zero]
  refine zpow_le_zpow_right₀ one_le_two ?_
  rw [unitExponent]
  omega

/-- A number has at least `2 ^ 52` of its units, unless these are the smallest there are. -/
theorem units_le (hq : 0 < q) (hunit : unitExponent q ≠ -1074) :
    2 ^ 52 * 2 ^ unitExponent q ≤ q := by
  have hlog : (2 : ℚ) ^ Int.log 2 q ≤ q := by
    exact_mod_cast Int.zpow_log_le_self (R := ℚ) one_lt_two hq
  refine le_trans ?_ hlog
  rw [← zpow_natCast, ← zpow_add₀ two_ne_zero]
  refine zpow_le_zpow_right₀ one_le_two ?_
  rw [unitExponent] at hunit ⊢
  omega

/-- The units of a number are found from a power of two below it and one above it. -/
theorem unitExponent_eq {e : ℤ} (hlow : 2 ^ e ≤ q) (hhigh : q < 2 ^ (e + 1)) :
    unitExponent q = max (e - 52) (-1074) := by
  have hq : 0 < q := (two_zpow_pos e).trans_le hlow
  have hle : e ≤ Int.log 2 q :=
    (Int.zpow_le_iff_le_log one_lt_two hq).1 (by exact_mod_cast hlow)
  have hlt : Int.log 2 q < e + 1 :=
    (Int.lt_zpow_iff_log_lt one_lt_two hq).1 (by exact_mod_cast hhigh)
  rw [unitExponent, show Int.log 2 q = e by omega]

theorem le_unitExponent {e : ℤ} (h : 2 ^ 52 * 2 ^ e ≤ q) : e ≤ unitExponent q := by
  have hpos : (0 : ℚ) < 2 ^ 52 * 2 ^ e := mul_pos (by norm_num) (two_zpow_pos e)
  have hlog : 52 + e ≤ Int.log 2 q := by
    refine (Int.zpow_le_iff_le_log one_lt_two (hpos.trans_le h)).1 ?_
    rw [Nat.cast_ofNat, zpow_add₀ two_ne_zero]
    exact_mod_cast h
  rw [unitExponent]
  omega

/-- Small numbers have the smallest units. -/
theorem unitExponent_of_lt (hq : 0 < q) (h : q < 2 ^ (-1021 : ℤ)) : unitExponent q = -1074 := by
  have hlt : Int.log 2 q < -1021 :=
    (Int.lt_zpow_iff_log_lt one_lt_two hq).1 (by exact_mod_cast h)
  rw [unitExponent]
  omega

/-! ## The nearest double -/

theorem nearestInt_div_le (q : ℚ) : nearestInt (q / 2 ^ unitExponent q) ≤ 2 ^ 53 := by
  refine nearestInt_le ?_
  rw [div_le_iff₀ (two_zpow_pos _)]
  exact_mod_cast (lt_units q).le

theorem nearestInt_div_nonneg (hq : 0 ≤ q) : 0 ≤ nearestInt (q / 2 ^ unitExponent q) := by
  refine le_nearestInt ?_
  rw [Int.cast_zero]
  exact div_nonneg hq (two_zpow_pos _).le

theorem le_nearestInt_div (hq : 0 < q) (hunit : unitExponent q ≠ -1074) :
    2 ^ 52 ≤ nearestInt (q / 2 ^ unitExponent q) := by
  refine le_nearestInt ?_
  rw [le_div_iff₀ (two_zpow_pos _)]
  exact_mod_cast units_le hq hunit

@[simp] theorem nearest_zero : nearest 0 = 0 := by
  have hzero : nearestInt 0 = 0 := by exact_mod_cast nearestInt_intCast 0
  rw [nearest, zero_div, hzero, Int.cast_zero, zero_mul]

theorem nearest_nonneg (hq : 0 ≤ q) : 0 ≤ nearest q :=
  mul_nonneg (Int.cast_nonneg (nearestInt_div_nonneg hq)) (two_zpow_pos _).le

/-- What a number is rounded to is a double. -/
theorem isDouble_nearest (hq : 0 ≤ q) : IsDouble (nearest q) := by
  obtain ⟨significand, hsignificand⟩ := Int.eq_ofNat_of_zero_le (nearestInt_div_nonneg hq)
  have hle := nearestInt_div_le q
  have hunit := neg_le_unitExponent q
  rw [nearest, hsignificand]
  rcases Nat.lt_or_ge significand (2 ^ 53) with hlt | hge
  · exact ⟨significand, unitExponent q, hlt, hunit, by push_cast; rfl⟩
  · -- the significand has become one bit longer, and its last bit is zero
    have hsame : significand = 2 ^ 53 := by omega
    refine ⟨2 ^ 52, unitExponent q + 1, by norm_num, by omega, ?_⟩
    rw [hsame, zpow_add₀ two_ne_zero]
    push_cast
    ring

/-- The distance from the nearest point of a grid, in units. -/
theorem abs_sub_nearest_eq (q : ℚ) : |q - nearest q| =
    |q / 2 ^ unitExponent q - nearestInt (q / 2 ^ unitExponent q)| * 2 ^ unitExponent q := by
  have hunit := two_zpow_pos (unitExponent q)
  rw [nearest, ← abs_of_pos hunit, ← abs_mul, abs_of_pos hunit, sub_mul,
    div_mul_cancel₀ _ hunit.ne']

theorem abs_sub_nearest_le_of_units (q : ℚ) (n : ℤ) :
    |q - nearest q| ≤ |q - n * 2 ^ unitExponent q| := by
  have hunit := two_zpow_pos (unitExponent q)
  have hpoint : |q - n * 2 ^ unitExponent q| =
      |q / 2 ^ unitExponent q - n| * 2 ^ unitExponent q := by
    rw [← abs_of_pos hunit, ← abs_mul, abs_of_pos hunit, sub_mul, div_mul_cancel₀ _ hunit.ne']
  rw [abs_sub_nearest_eq, hpoint]
  exact mul_le_mul_of_nonneg_right (abs_sub_nearestInt_le _ _) hunit.le

theorem abs_sub_nearest_le_half (q : ℚ) : |q - nearest q| ≤ 2 ^ unitExponent q / 2 := by
  have hhalf := abs_sub_nearestInt_le_half (q / 2 ^ unitExponent q)
  have hunit := two_zpow_pos (unitExponent q)
  rw [abs_sub_nearest_eq]
  nlinarith

/-- **No double is nearer** than the one that a number is rounded to. -/
theorem abs_sub_nearest_le (hq : 0 ≤ q) (hv : IsDouble v) : |q - nearest q| ≤ |q - v| := by
  obtain ⟨significand, exponent, hlt, hexponent, rfl⟩ := hv
  rcases hq.eq_or_lt with rfl | hpos
  · rw [nearest_zero, sub_zero, abs_zero]
    exact abs_nonneg _
  have hcast : (significand : ℚ) < 2 ^ 53 := by exact_mod_cast hlt
  rcases le_or_gt (unitExponent q) exponent with hle | hgt
  · -- the double is on the grid of the number
    obtain ⟨steps, hsteps⟩ := Int.eq_ofNat_of_zero_le (sub_nonneg.2 hle)
    have hgrid : (significand : ℚ) * 2 ^ exponent =
        ((significand * 2 ^ steps : ℕ) : ℤ) * 2 ^ unitExponent q := by
      rw [show exponent = (steps : ℤ) + unitExponent q by omega, zpow_add₀ two_ne_zero,
        zpow_natCast]
      push_cast
      ring
    rw [hgrid]
    exact abs_sub_nearest_le_of_units q _
  · -- the double is below the least point of the grid that has 53 bits, which is not above `q`
    have hbottom := units_le hpos (by omega)
    have hbelow : (significand : ℚ) * 2 ^ exponent ≤ 2 ^ 52 * 2 ^ unitExponent q := by
      have hpow : (2 : ℚ) ^ (exponent + 1) ≤ 2 ^ unitExponent q :=
        zpow_le_zpow_right₀ one_le_two (by omega)
      rw [zpow_add₀ two_ne_zero, zpow_one] at hpow
      nlinarith [two_zpow_pos exponent]
    have hgrid := abs_sub_nearest_le_of_units q (2 ^ 52)
    rw [Int.cast_pow, Int.cast_ofNat, abs_of_nonneg (sub_nonneg.2 hbottom)] at hgrid
    rw [abs_of_nonneg (by linarith : 0 ≤ q - (significand : ℚ) * 2 ^ exponent)]
    linarith

/-- **A double is rounded to itself.** -/
theorem nearest_eq_self (hv : IsDouble v) : nearest v = v := by
  have hnonneg : 0 ≤ v := by
    obtain ⟨significand, exponent, -, -, rfl⟩ := hv
    exact mul_nonneg (Nat.cast_nonneg _) (two_zpow_pos _).le
  have hle := abs_sub_nearest_le hnonneg hv
  rw [sub_self, abs_zero] at hle
  exact (sub_eq_zero.1 (abs_eq_zero.1 (le_antisymm hle (abs_nonneg _)))).symm

theorem isDouble_natCast {n : ℕ} (h : n < 2 ^ 53) : IsDouble n :=
  ⟨n, 0, h, by norm_num, by rw [zpow_zero, mul_one]⟩

theorem isDouble_two_zpow {e : ℤ} (h : -1074 ≤ e) : IsDouble (2 ^ e) :=
  ⟨1, e, by norm_num, h, by rw [Nat.cast_one, one_mul]⟩

theorem isDouble_two_pow (k : ℕ) : IsDouble (2 ^ k) := by
  rw [← zpow_natCast]
  exact isDouble_two_zpow (by omega)

/-- The powers of ten that are doubles: their significand is a power of five. -/
theorem isDouble_ten_pow {k : ℕ} (h : k ≤ 22) : IsDouble (10 ^ k) := by
  refine ⟨5 ^ k, k, (Nat.pow_le_pow_right (by norm_num) h).trans_lt (by norm_num), by omega, ?_⟩
  rw [zpow_natCast, Nat.cast_pow, ← mul_pow]
  norm_num

/-- A double that is not above stays not above when the other number is rounded. -/
theorem le_nearest (hv : IsDouble v) (h : v ≤ q) (hq : 0 ≤ q) : v ≤ nearest q := by
  by_contra hlt
  have hdist := abs_sub_nearest_le hq hv
  rw [abs_of_nonneg (by linarith), abs_of_nonneg (by linarith)] at hdist
  linarith

theorem nearest_le (hv : IsDouble v) (h : q ≤ v) (hq : 0 ≤ q) : nearest q ≤ v := by
  by_contra hlt
  have hdist := abs_sub_nearest_le hq hv
  rw [abs_of_nonpos (by linarith), abs_of_nonpos (by linarith)] at hdist
  linarith

/-- Rounding adds at most half a unit, and a number that is not below one has many units. -/
theorem nearest_le_mul (h : 1 ≤ q) : nearest q ≤ q * (1 + 1 / 2 ^ 53) := by
  have hunit : unitExponent q ≠ -1074 := by
    have hlog : 0 ≤ Int.log 2 q :=
      (Int.zpow_le_iff_le_log one_lt_two (by linarith)).1 (by rwa [zpow_zero])
    rw [unitExponent]
    omega
  have hbits := units_le (by linarith) hunit
  have hhalf := (abs_le.1 (abs_sub_nearest_le_half q)).1
  linarith

/-- What is below the least double by more than a bit becomes zero. -/
theorem nearest_eq_zero (hq : 0 ≤ q) (h : q ≤ 2 ^ (-1076 : ℤ)) : nearest q = 0 := by
  rcases hq.eq_or_lt with rfl | hpos
  · exact nearest_zero
  have hunit : unitExponent q = -1074 :=
    unitExponent_of_lt hpos (h.trans_lt (zpow_lt_zpow_right₀ one_lt_two (by norm_num)))
  have hquarter : q / 2 ^ (-1074 : ℤ) ≤ 1 / 4 := by
    rw [div_le_iff₀ (two_zpow_pos _)]
    refine h.trans_eq ?_
    rw [show (-1076 : ℤ) = -2 + -1074 by norm_num, zpow_add₀ two_ne_zero]
    norm_num
  have hint : nearestInt (q / 2 ^ (-1074 : ℤ)) = 0 := by
    refine nearestInt_of_abs_lt ?_
    rw [Int.cast_zero, sub_zero, abs_of_nonneg (div_nonneg hq (two_zpow_pos _).le)]
    linarith
  rw [nearest, hunit, hint, Int.cast_zero, zero_mul]

/-! ## The range of doubles -/

/-- The greatest double there is. -/
def greatest : ℚ := (2 ^ 53 - 1) * 2 ^ 971

theorem isDouble_greatest : IsDouble greatest := by
  refine ⟨2 ^ 53 - 1, (971 : ℕ), by norm_num, by norm_num, ?_⟩
  rw [greatest, zpow_natCast]
  norm_num

/-- The powers of two at the end of the range, in half units of the greatest double. -/
theorem exists_half_unit : ∃ half : ℚ, 0 < half ∧ 2 ^ 970 = half ∧ (2 : ℚ) ^ 971 = 2 * half ∧
    (2 : ℚ) ^ 1023 = 2 ^ 53 * half ∧ (2 : ℚ) ^ 1024 = 2 ^ 54 * half :=
  ⟨2 ^ 970, by positivity, rfl, pow_succ' 2 970, pow_add 2 53 970, pow_add 2 54 970⟩

/-- A number that is at least half-way from the greatest double to the next power of two is rounded
up to that. -/
theorem nearest_eq_of_half_way (hlow : 2 ^ 1024 - 2 ^ 970 ≤ q) (hhigh : q < 2 ^ 1024) :
    nearest q = 2 ^ 1024 := by
  obtain ⟨half, hpos, h970, h971, h1023, h1024⟩ := exists_half_unit
  have hunit : unitExponent q = (971 : ℕ) := by
    refine (unitExponent_eq (e := (1023 : ℕ)) ?_ hhigh).trans (by norm_num)
    rw [zpow_natCast, h1023]
    rw [h1024, h970] at hlow
    linarith
  have hdist : |q / 2 ^ 971 - ((2 ^ 53 : ℤ) : ℚ)| ≤ 1 / 2 := by
    rw [h1024] at hlow hhigh
    rw [h970] at hlow
    rw [h971, Int.cast_pow, Int.cast_ofNat, abs_le, le_sub_iff_add_le, sub_le_iff_le_add,
      le_div_iff₀ (by positivity), div_le_iff₀ (by positivity)]
    constructor <;> linarith only [hlow, hhigh, hpos]
  have hint : nearestInt (q / 2 ^ 971) = 2 ^ 53 := by
    rcases hdist.lt_or_eq with hlt | heq
    · exact nearestInt_of_abs_lt hlt
    · exact nearestInt_of_abs_eq heq (by decide)
  rw [nearest, hunit, zpow_natCast, hint, h971, h1024, Int.cast_pow, Int.cast_ofNat]
  ring

/-- **What is rounded into range** lies less than half a unit above the greatest double. -/
theorem nearest_lt_iff (hq : 0 ≤ q) : nearest q < 2 ^ 1024 ↔ q < 2 ^ 1024 - 2 ^ 970 := by
  constructor
  · intro h
    by_contra hge
    rcases lt_or_ge q (2 ^ 1024) with hlt | hover
    · exact h.ne (nearest_eq_of_half_way (not_lt.1 hge) hlt)
    · exact h.not_ge (le_nearest (isDouble_two_pow 1024) hover hq)
  · intro h
    by_contra hge
    rw [not_lt] at hge
    -- the greatest double would be nearer than any that is out of range
    have hdist := abs_sub_nearest_le hq isDouble_greatest
    obtain ⟨half, hpos, h970, h971, -, h1024⟩ := exists_half_unit
    rw [h1024] at h hge
    rw [h970] at h
    rw [greatest, h971, abs_of_nonpos (by linarith only [h, hge, hpos])] at hdist
    rcases abs_cases (q - (2 ^ 53 - 1) * (2 * half)) with ⟨habs, -⟩ | ⟨habs, -⟩
    · rw [habs] at hdist
      linarith only [hdist, h, hge, hpos]
    · rw [habs] at hdist
      linarith only [hdist, h, hge, hpos]

end Attest.Double
