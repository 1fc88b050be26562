import Mathlib
import Attest.Proofs.Double.Storage

/-!
# What is rounded to a double

The numbers that are rounded to a given double form an interval. It reaches half a unit to both
sides, but only a quarter of a unit down from a power of two, below which the doubles lie twice as
close. Its ends belong to it if the significand is even.

The main statement is `nearest_eq_iff`.
-/

namespace Attest.Double

variable {q : ℚ} {significand : ℕ} {exponent n : ℤ}

theorem even_nearestInt (h : Int.fract q = 1 / 2) : Even (nearestInt q) := by
  rw [nearestInt, if_pos h, Int.even_iff]
  omega

theorem nearestInt_eq_iff : nearestInt q = n ↔ |q - n| < 1 / 2 ∨ |q - n| = 1 / 2 ∧ Even n := by
  refine ⟨?_, ?_⟩
  · rintro rfl
    refine (abs_sub_nearestInt_le_half q).lt_or_eq.imp_right fun hhalf => ⟨hhalf, ?_⟩
    refine even_nearestInt ?_
    rcases (abs_eq (by norm_num)).1 hhalf with habove | hbelow
    · rw [Int.fract_eq_iff]
      exact ⟨by norm_num, by norm_num, nearestInt q, by linarith⟩
    · rw [Int.fract_eq_iff]
      exact ⟨by norm_num, by norm_num, nearestInt q - 1, by push_cast; linarith⟩
  · rintro (hlt | ⟨heq, heven⟩)
    · exact nearestInt_of_abs_lt hlt
    · exact nearestInt_of_abs_eq heq heven

/-- Whether a number lies in an interval, the ends of which may belong to it. -/
def Within (closed : Prop) (low high q : ℚ) : Prop :=
  low ≤ q ∧ q ≤ high ∧ (closed ∨ low < q ∧ q < high)

variable {closed : Prop} {low high p : ℚ}

theorem within_mul {unit : ℚ} (h : 0 < unit) :
    Within closed (low * unit) (high * unit) (q * unit) ↔ Within closed low high q := by
  simp only [Within, mul_le_mul_iff_left₀ h, mul_lt_mul_iff_left₀ h]

/-- What lies between two numbers in the interval lies in it too. -/
theorem Within.of_between {v : ℚ} (hp : Within closed low high p) (hq : Within closed low high q)
    (hlow : p ≤ v) (hhigh : v ≤ q) : Within closed low high v :=
  ⟨hp.1.trans hlow, hhigh.trans hq.2.1, hp.2.2.elim .inl fun hopen => hq.2.2.imp_right fun hopen' =>
    ⟨hopen.1.trans_le hlow, hhigh.trans_lt hopen'.2⟩⟩

/-- How far the interval of a double reaches down, in quarters of a unit. -/
def below (significand : ℕ) (exponent : ℤ) : ℕ :=
  if significand = 2 ^ 52 ∧ exponent ≠ -1074 then 1 else 2

/-- On the grid of a number its nearest double is found by rounding to a whole number of units. -/
theorem nearest_eq_iff_of_unit (hunit : unitExponent q = exponent) :
    nearest q = significand * 2 ^ exponent ↔
      Within (Even significand) (significand - 1 / 2) (significand + 1 / 2) (q / 2 ^ exponent) := by
  have hcast : (significand : ℚ) = (significand : ℤ) := rfl
  rw [nearest, hunit, mul_left_inj' (two_zpow_pos exponent).ne', hcast, Int.cast_inj,
    nearestInt_eq_iff, Int.even_coe_nat, abs_lt, abs_eq (by norm_num), Within]
  generalize q / 2 ^ exponent = units
  rw [← hcast]
  constructor
  · rintro (⟨hlow, hhigh⟩ | ⟨habove | hbelow, heven⟩)
    · exact ⟨by linarith, by linarith, .inr ⟨by linarith, by linarith⟩⟩
    · exact ⟨by linarith, by linarith, .inl heven⟩
    · exact ⟨by linarith, by linarith, .inl heven⟩
  · rintro ⟨hlow, hhigh, heven | ⟨hlow', hhigh'⟩⟩
    · rcases hlow.lt_or_eq with hlow | hlow
      · rcases hhigh.lt_or_eq with hhigh | hhigh
        · exact .inl ⟨by linarith, by linarith⟩
        · exact .inr ⟨.inl (by linarith), heven⟩
      · exact .inr ⟨.inr (by linarith), heven⟩
    · exact .inl ⟨by linarith, by linarith⟩

theorem two_zpow_quarters (exponent : ℤ) : (2 : ℚ) ^ exponent = 4 * 2 ^ (exponent - 2) := by
  rw [zpow_sub₀ two_ne_zero]
  norm_num
  ring

theorem two_zpow_half (exponent : ℤ) : (2 : ℚ) ^ (exponent - 1) = 2 * 2 ^ (exponent - 2) := by
  rw [← zpow_one_add₀ two_ne_zero]
  congr 1
  ring

/-- The number is on the grid of the double. -/
theorem nearest_eq_iff_of_same {u : ℚ} (hq : 0 < u * 2 ^ (exponent - 2))
    (hunit : unitExponent (u * 2 ^ (exponent - 2)) = exponent) :
    nearest (u * 2 ^ (exponent - 2)) = significand * 2 ^ exponent ↔
      Within (Even significand) (4 * significand - below significand exponent)
        (4 * significand + 2) u := by
  have hquarter := two_zpow_pos (exponent - 2)
  rw [nearest_eq_iff_of_unit hunit, two_zpow_quarters exponent, mul_div_mul_right _ _ hquarter.ne',
    ← within_mul (by norm_num : (0 : ℚ) < 4)]
  rw [div_mul_cancel₀ _ (by norm_num), below]
  split_ifs with hpower
  · -- at a power of two the number is not below it
    have hbits := units_le hq (by omega)
    rw [hunit, two_zpow_quarters exponent, ← mul_assoc, mul_le_mul_iff_left₀ hquarter] at hbits
    have heven : Even significand := hpower.1 ▸ by decide
    have hcast : (significand : ℚ) = 2 ^ 52 := by exact_mod_cast hpower.1
    simp only [Within, heven, true_or, and_true]
    push_cast
    exact ⟨fun h => ⟨by linarith, by linarith⟩, fun h => ⟨by linarith, by linarith⟩⟩
  · push_cast
    rw [show ((significand : ℚ) - 1 / 2) * 4 = 4 * significand - 2 by ring,
      show ((significand : ℚ) + 1 / 2) * 4 = 4 * significand + 2 by ring]

/-- The number is on the next finer grid. -/
theorem nearest_eq_iff_of_finer {u : ℚ} (hbits : 2 ^ 52 ≤ significand) (hexponent : -1074 < exponent)
    (hunit : unitExponent (u * 2 ^ (exponent - 2)) = exponent - 1) :
    nearest (u * 2 ^ (exponent - 2)) = significand * 2 ^ exponent ↔
      Within (Even significand) (4 * significand - below significand exponent)
        (4 * significand + 2) u := by
  have hquarter := two_zpow_pos (exponent - 2)
  have hhalf := two_zpow_half exponent
  have hdouble : (significand * 2 ^ exponent : ℚ) = (2 * significand : ℕ) * 2 ^ (exponent - 1) := by
    rw [hhalf, two_zpow_quarters exponent]
    push_cast
    ring
  have hless := lt_units (u * 2 ^ (exponent - 2))
  rw [hunit, hhalf, ← mul_assoc, mul_lt_mul_iff_left₀ hquarter] at hless
  rw [hdouble, nearest_eq_iff_of_unit hunit, hhalf, mul_div_mul_right _ _ hquarter.ne',
    ← within_mul two_pos, div_mul_cancel₀ _ two_ne_zero, below]
  have heven : Even (2 * significand) := even_two_mul _
  simp only [Within, heven, true_or, and_true]
  push_cast
  split_ifs with hpower
  · have heven : Even significand := hpower.1 ▸ by decide
    have hcast : (significand : ℚ) = 2 ^ 52 := by exact_mod_cast hpower.1
    simp only [heven, true_or, and_true]
    exact ⟨fun h => ⟨by linarith, by linarith⟩, fun h => ⟨by linarith, by linarith⟩⟩
  · -- above a power of two the number is too small
    have hmore : (2 : ℚ) ^ 52 + 1 ≤ significand := by
      exact_mod_cast (show 2 ^ 52 + 1 ≤ significand by omega)
    refine iff_of_false (fun h => ?_) (fun h => ?_)
    · linarith [h.1]
    · linarith [h.1]

/-- **What is rounded to a double** is what lies in its interval. -/
theorem nearest_eq_iff (h : Stored significand exponent) (hq : 0 < q) :
    nearest q = significand * 2 ^ exponent ↔
      Within (Even significand) ((4 * significand - below significand exponent) * 2 ^ (exponent - 2))
        ((4 * significand + 2) * 2 ^ (exponent - 2)) q := by
  obtain ⟨hlt, hle, hfull⟩ := h
  have hquarter := two_zpow_pos (exponent - 2)
  obtain ⟨u, rfl⟩ : ∃ u, q = u * 2 ^ (exponent - 2) := ⟨_, (div_mul_cancel₀ _ hquarter.ne').symm⟩
  rw [within_mul hquarter]
  have hbelow : (below significand exponent : ℚ) ≤ 2 := by
    rw [below]
    split_ifs <;> norm_num
  rcases lt_trichotomy (unitExponent (u * 2 ^ (exponent - 2))) exponent with hless | hsame | hmore
  · have hexponent : -1074 < exponent := (neg_le_unitExponent _).trans_lt hless
    have hbits := hfull.resolve_right hexponent.ne'
    rcases (Int.le_sub_one_of_lt hless).lt_or_eq with hfar | hnext
    · -- the number is too small
      have hcast : (2 : ℚ) ^ 52 ≤ significand := by exact_mod_cast hbits
      have htop : IsDouble (2 ^ 53 * 2 ^ (exponent - 2)) :=
        ⟨2 ^ 52, exponent - 1, by norm_num, by omega, by rw [two_zpow_half]; push_cast; ring⟩
      have hsmall := (lt_units (u * 2 ^ (exponent - 2))).trans_le
        (mul_le_mul_of_nonneg_left (zpow_le_zpow_right₀ one_le_two (show _ ≤ exponent - 2 by omega))
          (by norm_num))
      have hnearest := nearest_le htop hsmall.le hq.le
      have hlarge := mul_le_mul_of_nonneg_right hcast hquarter.le
      refine iff_of_false (fun heq => ?_) (fun hwithin => ?_)
      · rw [heq, two_zpow_quarters exponent] at hnearest
        linarith
      · have := mul_le_mul_of_nonneg_right hwithin.1 hquarter.le
        have := mul_le_mul_of_nonneg_right hbelow hquarter.le
        linarith
    · exact nearest_eq_iff_of_finer hbits hexponent hnext
  · exact nearest_eq_iff_of_same hq hsame
  · -- the number is too large
    have hcast : (significand : ℚ) + 1 ≤ 2 ^ 53 := by exact_mod_cast hlt
    have hunit := units_le hq (by omega)
    have hpow : (2 : ℚ) ^ (exponent + 1) ≤ 2 ^ unitExponent (u * 2 ^ (exponent - 2)) :=
      zpow_le_zpow_right₀ one_le_two hmore
    rw [zpow_add_one₀ two_ne_zero, two_zpow_quarters exponent] at hpow
    have hnearest := le_nearest ⟨2 ^ 52, _, by norm_num, neg_le_unitExponent _, by push_cast; rfl⟩
      hunit hq.le
    have hlarge := mul_le_mul_of_nonneg_right hcast hquarter.le
    refine iff_of_false (fun heq => ?_) (fun hwithin => ?_)
    · rw [heq, two_zpow_quarters exponent] at hnearest
      linarith
    · have := mul_le_mul_of_nonneg_right hwithin.2.1 hquarter.le
      linarith

end Attest.Double
