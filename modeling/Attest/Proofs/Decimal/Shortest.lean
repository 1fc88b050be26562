import Mathlib
import Attest.Decimal.Shortest
import Attest.Proofs.Double.Intervals

/-!
# Shortest decimals

The search looks at coarse grids of decimals first. A grid that has a point in the interval of a
double has one next to the double, so nothing is missed, and the grid on which the double has
seventeen digits is finer than the interval is wide. Hence the decimal that is found is rounded to
the double, and none with fewer digits is.

The main statements are `Decimal.nearest_shortest` and `Decimal.lt_of_nearest_eq`.
-/

namespace Attest.Decimal

open Double Float.Model

/-! ## Fractions -/

/-- The rational number of a fraction. -/
def Fraction.value (f : Fraction) : ℚ := f.numerator / f.denominator

/-- The rational number of a decimal. -/
def value (d : Decimal) : ℚ := d.digits * 10 ^ d.exponent

namespace Fraction

variable {a b : Fraction}

theorem denominator_binary_pos (n : ℕ) (e : ℤ) : 0 < (binary n e).denominator := by
  rw [binary]
  split_ifs
  · exact Nat.one_pos
  · exact Nat.pow_pos (by decide)

theorem denominator_decimal_pos (n : ℕ) (e : ℤ) : 0 < (decimal n e).denominator := by
  rw [decimal]
  split_ifs
  · exact Nat.one_pos
  · exact Nat.pow_pos (by decide)

theorem value_binary (n : ℕ) (e : ℤ) : (binary n e).value = n * 2 ^ e := by
  rw [binary, value]
  split_ifs with h
  · obtain ⟨k, rfl⟩ := Int.eq_ofNat_of_zero_le h
    simp
  · obtain ⟨k, hk⟩ := Int.eq_ofNat_of_zero_le (show 0 ≤ -e by omega)
    obtain rfl : e = -k := by omega
    simp [div_eq_mul_inv]

theorem value_decimal (n : ℕ) (e : ℤ) : (decimal n e).value = n * 10 ^ e := by
  rw [decimal, value]
  split_ifs with h
  · obtain ⟨k, rfl⟩ := Int.eq_ofNat_of_zero_le h
    simp
  · obtain ⟨k, hk⟩ := Int.eq_ofNat_of_zero_le (show 0 ≤ -e by omega)
    obtain rfl : e = -k := by omega
    simp [div_eq_mul_inv]

theorem less_iff (ha : 0 < a.denominator) (hb : 0 < b.denominator) :
    a.less b ↔ a.value < b.value := by
  have ha : (0 : ℚ) < a.denominator := Nat.cast_pos.2 ha
  have hb : (0 : ℚ) < b.denominator := Nat.cast_pos.2 hb
  rw [less, decide_eq_true_iff, value, value, div_lt_div_iff₀ ha hb]
  exact_mod_cast Iff.rfl

end Fraction

theorem value_fraction (d : Decimal) : d.fraction.value = d.value := Fraction.value_decimal _ _

/-! ## The interval of a double -/

/-- Whether a rational number is in an interval. -/
def Rounding.Contains (r : Rounding) (q : ℚ) : Prop :=
  Within (r.closed = true) r.low.value r.high.value q

/-- An interval around a positive number, as fractions with denominators. -/
structure Rounding.IsProper (r : Rounding) : Prop where
  value_pos : 0 < r.value.denominator
  low_pos : 0 < r.low.denominator
  high_pos : 0 < r.high.denominator
  contains : r.Contains r.value.value

variable {r : Rounding} {d : Decimal}

theorem Rounding.holds_iff (hr : r.IsProper) : r.holds d ↔ r.Contains d.value := by
  have hd : 0 < d.fraction.denominator := Fraction.denominator_decimal_pos _ _
  have hlow := Fraction.less_iff hd hr.low_pos
  have hlow' := Fraction.less_iff hr.low_pos hd
  have hhigh := Fraction.less_iff hr.high_pos hd
  have hhigh' := Fraction.less_iff hd hr.high_pos
  rw [value_fraction] at hlow hlow' hhigh hhigh'
  rw [holds, Contains, Within]
  cases r.closed with
  | true =>
    simp only [↓reduceIte, Bool.and_eq_true, Bool.not_eq_true', true_or, and_true]
    rw [← Bool.not_eq_true, ← Bool.not_eq_true, hlow, hhigh, not_lt, not_lt]
  | false =>
    simp only [Bool.false_eq_true, ↓reduceIte, Bool.and_eq_true, false_or]
    rw [hlow', hhigh']
    exact ⟨fun h => ⟨h.1.le, h.2.le, h⟩, fun h => h.2.2⟩

/-! ## One grid -/

variable {exponent : ℤ}

theorem ten_zpow_pos (e : ℤ) : (0 : ℚ) < 10 ^ e := zpow_pos (by norm_num) e

/-- The whole units are those below the value. -/
theorem wholeUnits_bounds (v : Fraction) (exponent : ℤ) :
    wholeUnits v exponent * (10 : ℚ) ^ exponent ≤ v.value ∧
      v.value < (wholeUnits v exponent + 1) * 10 ^ exponent := by
  have hunit := Fraction.value_decimal 1 exponent
  rw [Nat.cast_one, one_mul] at hunit
  have hfloor : wholeUnits v exponent = ⌊v.value / 10 ^ exponent⌋₊ := by
    rw [wholeUnits, ← Nat.floor_div_eq_div (K := ℚ), ← hunit, Fraction.value, Fraction.value,
      div_div_div_eq]
    push_cast
    rfl
  have hpos := ten_zpow_pos exponent
  have hnonneg : 0 ≤ v.value / 10 ^ exponent :=
    div_nonneg (div_nonneg (Nat.cast_nonneg _) (Nat.cast_nonneg _)) hpos.le
  rw [hfloor, ← le_div_iff₀ hpos, ← div_lt_iff₀ hpos]
  exact ⟨Nat.floor_le hnonneg, Nat.lt_floor_add_one _⟩

/-- Whether an interval has a point on a grid. -/
def Rounding.Meets (r : Rounding) (exponent : ℤ) : Prop :=
  ∃ k : ℕ, 0 < k ∧ r.Contains (k * 10 ^ exponent)

/-- A decimal with few digits in the interval means that a coarse grid meets it: the decimal itself is
on that grid, or else it is below a power of ten that is on it and not above the value. -/
theorem Rounding.IsProper.meets_of_lt (hr : r.IsProper) {digits count : ℕ} {e top : ℤ}
    (hpos : 0 < digits) (hcount : 0 < count) (hdigits : digits < 10 ^ count)
    (htop : 10 ^ (top - 1) ≤ r.value.value) (h : r.Contains (digits * 10 ^ e)) :
    r.Meets (top - count) := by
  rcases le_or_gt (top - count) e with hge | hlt
  · obtain ⟨places, hplaces⟩ := Int.eq_ofNat_of_zero_le (sub_nonneg.2 hge)
    refine ⟨digits * 10 ^ places, by positivity, ?_⟩
    have hsame : ((digits * 10 ^ places : ℕ) : ℚ) * 10 ^ (top - count : ℤ) = digits * 10 ^ e := by
      rw [show e = places + (top - count) by omega, zpow_add₀ (by norm_num), zpow_natCast]
      push_cast
      ring
    rwa [hsame]
  · refine ⟨10 ^ (count - 1), by positivity, ?_⟩
    have hsame : ((10 ^ (count - 1) : ℕ) : ℚ) * 10 ^ (top - count : ℤ) = 10 ^ (top - 1) := by
      push_cast
      rw [← zpow_natCast, ← zpow_add₀ (by norm_num)]
      congr 1
      omega
    rw [hsame]
    refine h.of_between hr.contains ?_ htop
    calc (digits : ℚ) * 10 ^ e
      _ ≤ 10 ^ count * 10 ^ e := mul_le_mul_of_nonneg_right (by exact_mod_cast hdigits.le)
        (ten_zpow_pos e).le
      _ = 10 ^ ((count : ℤ) + e) := by rw [zpow_add₀ (by norm_num), zpow_natCast]
      _ ≤ 10 ^ (top - 1) := zpow_le_zpow_right₀ (by norm_num) (by omega)

/-- What is found on a grid is a point in the interval next to the value. -/
theorem onGrid?_eq_some (hr : r.IsProper) (h : onGrid? r exponent = some d) :
    r.Contains d.value ∧ d.exponent = exponent ∧ 0 < d.digits ∧
      d.digits ≤ wholeUnits r.value exponent + 1 := by
  rw [onGrid?] at h
  split at h
  · next hlower hupper =>
    rw [Bool.and_eq_true, Rounding.holds_iff hr, decide_eq_true_iff] at hlower
    rw [Rounding.holds_iff hr] at hupper
    split_ifs at h <;> cases h
    · exact ⟨hlower.1, rfl, hlower.2, Nat.le_succ _⟩
    · exact ⟨hupper, rfl, Nat.succ_pos _, le_rfl⟩
    · exact ⟨hlower.1, rfl, hlower.2, Nat.le_succ _⟩
    · exact ⟨hupper, rfl, Nat.succ_pos _, le_rfl⟩
  · next hlower _ =>
    rw [Bool.and_eq_true, Rounding.holds_iff hr, decide_eq_true_iff] at hlower
    cases h
    exact ⟨hlower.1, rfl, hlower.2, Nat.le_succ _⟩
  · next _ hupper =>
    rw [Rounding.holds_iff hr] at hupper
    cases h
    exact ⟨hupper, rfl, Nat.succ_pos _, le_rfl⟩
  · cases h

/-- **Nothing is missed on a grid**: between the value and any point of the grid in the interval
lies one of the two neighbours of the value. -/
theorem onGrid?_eq_none (hr : r.IsProper) (h : onGrid? r exponent = none) : ¬r.Meets exponent := by
  rintro ⟨k, hk, hcontains⟩
  have hpos := ten_zpow_pos exponent
  obtain ⟨hbelow, habove⟩ := wholeUnits_bounds r.value exponent
  have hlower := (Rounding.holds_iff hr (d := ⟨wholeUnits r.value exponent, exponent⟩)).2
  have hupper := (Rounding.holds_iff hr (d := ⟨wholeUnits r.value exponent + 1, exponent⟩)).2
  simp only [value] at hlower hupper
  push_cast at hupper
  rw [onGrid?] at h
  rcases Nat.lt_or_ge (wholeUnits r.value exponent) k with hlt | hge
  · have hle : ((wholeUnits r.value exponent : ℚ) + 1) * 10 ^ exponent ≤ k * 10 ^ exponent :=
      mul_le_mul_of_nonneg_right (by exact_mod_cast hlt) hpos.le
    rw [hupper (hr.contains.of_between hcontains habove.le hle)] at h
    split at h
    · split_ifs at h
    · cases h
    · cases h
    · next hfalse => cases hfalse
  · have hle : (k : ℚ) * 10 ^ exponent ≤ wholeUnits r.value exponent * 10 ^ exponent :=
      mul_le_mul_of_nonneg_right (by exact_mod_cast hge) hpos.le
    rw [hlower (hcontains.of_between hr.contains hle hbelow),
      decide_eq_true (hk.trans_le hge)] at h
    split at h
    · split_ifs at h
    · cases h
    · cases h
    · next hfalse _ => cases hfalse

/-! ## The search -/

/-- What the search finds is on the coarsest grid that meets the interval, if one of those does that
it looks at. -/
theorem coarsest_spec (hr : r.IsProper) {grids : ℕ}
    (hmeets : ∃ i < grids, r.Meets (exponent - i)) :
    r.Contains (coarsest r grids exponent).value ∧ 0 < (coarsest r grids exponent).digits ∧
      (coarsest r grids exponent).digits ≤
        wholeUnits r.value (coarsest r grids exponent).exponent + 1 ∧
      (coarsest r grids exponent).exponent ≤ exponent ∧
      ∀ e, (coarsest r grids exponent).exponent < e → e ≤ exponent → ¬r.Meets e := by
  induction grids generalizing exponent with
  | zero =>
    obtain ⟨i, hi, -⟩ := hmeets
    exact absurd hi (Nat.not_lt_zero i)
  | succ grids ih =>
    rw [coarsest]
    cases hgrid : onGrid? r exponent with
    | some d =>
      obtain ⟨hcontains, hexponent, hpos, hle⟩ := onGrid?_eq_some hr hgrid
      dsimp only
      rw [hexponent]
      exact ⟨hcontains, hpos, hle, le_rfl, fun e hlt hle => absurd hlt (not_lt.2 hle)⟩
    | none =>
      have hnone := onGrid?_eq_none hr hgrid
      obtain ⟨i, hi, hmeets⟩ := hmeets
      have hnext : ∃ i < grids, r.Meets (exponent - 1 - i) := by
        rcases i with _ | i
        · rw [Nat.cast_zero, sub_zero] at hmeets
          exact absurd hmeets hnone
        · refine ⟨i, by omega, ?_⟩
          rwa [show exponent - 1 - (i : ℤ) = exponent - (i + 1 : ℕ) by push_cast; ring]
      obtain ⟨hcontains, hpos, hle, hexponent, hcoarser⟩ := ih hnext
      refine ⟨hcontains, hpos, hle, by dsimp only; omega, fun e hlt hle => ?_⟩
      rcases hle.lt_or_eq with hless | rfl
      · exact hcoarser e hlt (by omega)
      · exact hnone

/-- Between which powers of ten a value lies. -/
theorem magnitude_bounds {v : Fraction} (hv : 0 < v.denominator) {length : ℕ}
    (hlow : 10 ^ (exponent - 1) ≤ v.value) (hhigh : v.value < 10 ^ (exponent + length)) :
    10 ^ (magnitude v length exponent - 1) ≤ v.value ∧
      v.value < 10 ^ magnitude v length exponent := by
  induction length generalizing exponent with
  | zero =>
    rw [Nat.cast_zero, add_zero] at hhigh
    exact ⟨hlow, hhigh⟩
  | succ length ih =>
    have hless := Fraction.less_iff hv (Fraction.denominator_decimal_pos 1 exponent)
    rw [Fraction.value_decimal, Nat.cast_one, one_mul] at hless
    rw [magnitude]
    split_ifs with h
    · exact ⟨hlow, hless.1 h⟩
    · refine ih ?_ ?_
      · rw [add_sub_cancel_right]
        exact not_lt.1 (mt hless.2 h)
      · rwa [show exponent + 1 + (length : ℤ) = exponent + (length + 1 : ℕ) by push_cast; ring]

/-! ## The interval of a stored double -/

variable {x : Float} {significand : ℕ} {hpos : 0 < significand}

theorem value_ofBits (h : x.toModel.unpack = .finite .positive significand exponent hpos) :
    (Rounding.ofBits x.toBits).value.value = significand * 2 ^ exponent ∧
      (Rounding.ofBits x.toBits).low.value =
        (4 * significand - below significand exponent) * 2 ^ (exponent - 2) ∧
      (Rounding.ofBits x.toBits).high.value = (4 * significand + 2) * 2 ^ (exponent - 2) ∧
      ((Rounding.ofBits x.toBits).closed = true ↔ Even significand) := by
  obtain ⟨field, tail, hfield, htail, -, hsignificand, hexponent⟩ := exists_bits h
  have hfield' : x.toBits.toNat / hiddenBit % 2048 = field := hfield.symm
  have htail' : x.toBits.toNat % hiddenBit = tail := htail.symm
  have hless : tail < 2 ^ 52 := htail ▸ Nat.mod_lt _ (by norm_num)
  have hsignificand' : (if field = 0 then tail else hiddenBit + tail) = significand :=
    hsignificand.symm
  have hbelow : (if tail = 0 ∧ 1 < field then 1 else 2) = below significand exponent := by
    rw [below]
    refine if_congr ?_ rfl rfl
    split_ifs at hsignificand with hzero <;> omega
  have heven : decide (tail % 2 = 0) = true ↔ Even significand := by
    rw [decide_eq_true_iff, Nat.even_iff]
    split_ifs at hsignificand with hzero <;> omega
  have hexponent' : ((max field 1 : ℕ) : ℤ) - 1077 = exponent - 2 := by omega
  have hle : below significand exponent ≤ 4 * significand := by
    rw [below]
    split_ifs <;> omega
  simp only [Rounding.ofBits, hfield', htail', hsignificand', hbelow, hexponent',
    Fraction.value_binary]
  refine ⟨?_, ?_, ?_, heven⟩
  · rw [two_zpow_quarters exponent]
    push_cast
    ring
  · rw [Nat.cast_sub hle]
    push_cast
    rfl
  · push_cast
    rfl

theorem denominator_ofBits_pos (bits : UInt64) :
    0 < (Rounding.ofBits bits).value.denominator ∧ 0 < (Rounding.ofBits bits).low.denominator ∧
      0 < (Rounding.ofBits bits).high.denominator :=
  ⟨Fraction.denominator_binary_pos _ _, Fraction.denominator_binary_pos _ _,
    Fraction.denominator_binary_pos _ _⟩

/-- **The interval is that of the numbers that are rounded to the double.** -/
theorem contains_iff (h : x.toModel.unpack = .finite .positive significand exponent hpos) {q : ℚ}
    (hq : 0 < q) :
    (Rounding.ofBits x.toBits).Contains q ↔ nearest q = significand * 2 ^ exponent := by
  obtain ⟨-, hlow, hhigh, hclosed⟩ := value_ofBits h
  rw [nearest_eq_iff (stored_of_unpack h).1 hq, Rounding.Contains, hlow, hhigh, Within, Within,
    hclosed]

theorem isProper_ofBits (h : x.toModel.unpack = .finite .positive significand exponent hpos) :
    (Rounding.ofBits x.toBits).IsProper := by
  obtain ⟨hvalue_pos, hlow_pos, hhigh_pos⟩ := denominator_ofBits_pos x.toBits
  obtain ⟨hvalue, -, -, -⟩ := value_ofBits h
  obtain ⟨hstored, -⟩ := stored_of_unpack h
  refine ⟨hvalue_pos, hlow_pos, hhigh_pos, ?_⟩
  rw [hvalue, contains_iff h (mul_pos (Nat.cast_pos.2 hpos) (two_zpow_pos exponent))]
  exact nearest_eq_self ⟨significand, exponent, hstored.lt, hstored.le, rfl⟩

/-- **Seventeen digits suffice**: on that grid the points are closer than the interval is wide. -/
theorem meets_ofBits (h : x.toModel.unpack = .finite .positive significand exponent hpos) {e : ℤ}
    (he : 10 ^ (e - 1) ≤ (significand * 2 ^ exponent : ℚ)) :
    (Rounding.ofBits x.toBits).Meets (e - 17) := by
  obtain ⟨-, hlow, hhigh, -⟩ := value_ofBits h
  obtain ⟨hstored, -⟩ := stored_of_unpack h
  have hquarter := two_zpow_pos (exponent - 2)
  have hstep := ten_zpow_pos (e - 17)
  have hcast : (significand : ℚ) + 1 ≤ 2 ^ 53 := by exact_mod_cast hstored.lt
  have hone : (1 : ℚ) ≤ significand := by exact_mod_cast hpos
  -- the distance between two points of the grid, in quarters of a unit
  have hnarrow : (10 : ℚ) ^ (e - 17) * 10 ^ 16 ≤ 4 * significand * 2 ^ (exponent - 2) := by
    rw [← zpow_natCast, ← zpow_add₀ (by norm_num), show e - 17 + ((16 : ℕ) : ℤ) = e - 1 by
      push_cast; ring]
    rw [two_zpow_quarters exponent] at he
    linarith
  have hwide : (10 : ℚ) ^ (e - 17) < (2 + below significand exponent) * 2 ^ (exponent - 2) := by
    rw [below]
    split_ifs with hpower
    · have hsame : (significand : ℚ) = 2 ^ 52 := by exact_mod_cast hpower.1
      rw [hsame] at hnarrow
      push_cast
      linarith
    · have := mul_le_mul_of_nonneg_right hcast hquarter.le
      push_cast
      linarith
  have hnonneg : 0 ≤ (Rounding.ofBits x.toBits).low.value / 10 ^ (e - 17) :=
    div_nonneg (div_nonneg (Nat.cast_nonneg _) (Nat.cast_nonneg _)) hstep.le
  have hfloor := Nat.floor_le hnonneg
  have hnext := Nat.lt_floor_add_one ((Rounding.ofBits x.toBits).low.value / 10 ^ (e - 17))
  rw [le_div_iff₀ hstep] at hfloor
  rw [div_lt_iff₀ hstep] at hnext
  refine ⟨⌊(Rounding.ofBits x.toBits).low.value / 10 ^ (e - 17)⌋₊ + 1, Nat.succ_pos _, ?_⟩
  push_cast
  have hbelow : ((⌊(Rounding.ofBits x.toBits).low.value / 10 ^ (e - 17)⌋₊ : ℚ) + 1) *
      10 ^ (e - 17) < (Rounding.ofBits x.toBits).high.value := by
    rw [hlow] at hfloor ⊢
    rw [hhigh]
    linarith
  exact ⟨hnext.le, hbelow.le, .inr ⟨hnext, hbelow⟩⟩

/-! ## The shortest decimal -/

/-- The powers of ten around all doubles. -/
theorem double_bounds (h : x.toModel.unpack = .finite .positive significand exponent hpos) :
    (10 : ℚ) ^ (-331 : ℤ) ≤ significand * 2 ^ exponent ∧
      (significand * 2 ^ exponent : ℚ) < 10 ^ (320 : ℤ) := by
  have hpowers : 2 ^ 1074 ≤ 10 ^ 331 ∧ 2 ^ 1024 ≤ 10 ^ 320 := by decide +kernel
  obtain ⟨hstored, hrange⟩ := stored_of_unpack h
  constructor
  · calc (10 : ℚ) ^ (-331 : ℤ)
      _ = (10 ^ 331)⁻¹ := zpow_neg_coe_of_pos 10 (by norm_num)
      _ ≤ (2 ^ 1074)⁻¹ := inv_anti₀ (by positivity) (by exact_mod_cast hpowers.1)
      _ = 2 ^ (-1074 : ℤ) := (zpow_neg_coe_of_pos 2 (by norm_num)).symm
      _ ≤ 2 ^ exponent := zpow_le_zpow_right₀ one_le_two hstored.le
      _ ≤ significand * 2 ^ exponent :=
        le_mul_of_one_le_left (two_zpow_pos exponent).le (by exact_mod_cast hpos)
  · refine (hstored.lt_iff.2 hrange).trans_le ?_
    exact_mod_cast hpowers.2

/-- What is found before a zero at the end is taken off. -/
theorem exists_shortest (h : x.toModel.unpack = .finite .positive significand exponent hpos) :
    ∃ (d : Decimal) (e : ℤ), (Rounding.ofBits x.toBits).Contains d.value ∧ 0 < d.digits ∧
      d.value ≤ 10 ^ e ∧ 10 ^ (e - 1) ≤ (significand * 2 ^ exponent : ℚ) ∧
      (∀ g, d.exponent < g → g < e → ¬(Rounding.ofBits x.toBits).Meets g) ∧
      shortest x.toBits = if d.digits % 10 = 0 then ⟨d.digits / 10, d.exponent + 1⟩ else d := by
  have hr := isProper_ofBits h
  obtain ⟨hvalue, -, -, -⟩ := value_ofBits h
  obtain ⟨hleast, hgreatest⟩ := double_bounds h
  have hbounds := @magnitude_bounds (-330) _ hr.value_pos 650 (by rw [hvalue]; exact hleast)
    (by rw [hvalue]; exact hgreatest)
  rw [hvalue] at hbounds
  generalize hmagnitude : magnitude (Rounding.ofBits x.toBits).value 650 (-330) = e at hbounds
  have hmeets : ∃ i < 17, (Rounding.ofBits x.toBits).Meets (e - 1 - (i : ℕ)) := by
    refine ⟨16, by norm_num, ?_⟩
    rw [show e - 1 - ((16 : ℕ) : ℤ) = e - 17 by push_cast; ring]
    exact meets_ofBits h hbounds.1
  obtain ⟨hcontains, hdigits, hle, hexponent, hcoarser⟩ := coarsest_spec hr hmeets
  generalize hd : coarsest (Rounding.ofBits x.toBits) 17 (e - 1) = d at *
  refine ⟨d, e, hcontains, hdigits, ?_, hbounds.1, fun g hlt hless => hcoarser g hlt (by omega), ?_⟩
  · -- the whole units are below a power of ten, which is itself a whole number of units
    obtain ⟨places, hplaces⟩ := Int.eq_ofNat_of_zero_le (show 0 ≤ e - d.exponent by omega)
    have hsplit : (10 : ℚ) ^ e = (10 ^ places : ℕ) * 10 ^ d.exponent := by
      rw [show e = places + d.exponent by omega, zpow_add₀ (by norm_num), zpow_natCast]
      push_cast
      rfl
    have hunits := (wholeUnits_bounds (Rounding.ofBits x.toBits).value d.exponent).1.trans_lt
      (hvalue ▸ hbounds.2)
    rw [hsplit, mul_lt_mul_iff_left₀ (ten_zpow_pos _), Nat.cast_lt] at hunits
    rw [value, hsplit, mul_le_mul_iff_left₀ (ten_zpow_pos _), Nat.cast_le]
    omega
  · rw [shortest, hmagnitude, hd]

/-- **The shortest decimal of a double is rounded to it.** -/
theorem nearest_shortest (h : x.toModel.unpack = .finite .positive significand exponent hpos) :
    0 < (shortest x.toBits).digits ∧
      nearest (shortest x.toBits).value = significand * 2 ^ exponent := by
  obtain ⟨d, e, hcontains, hdigits, -, -, -, hshortest⟩ := exists_shortest h
  have hpositive : 0 < d.value := mul_pos (Nat.cast_pos.2 hdigits) (ten_zpow_pos _)
  have hnearest := (contains_iff h hpositive).1 hcontains
  rw [hshortest]
  split_ifs with hzero
  · obtain ⟨front, hfront⟩ := Nat.dvd_of_mod_eq_zero hzero
    have hsame : value ⟨d.digits / 10, d.exponent + 1⟩ = d.value := by
      rw [value, value, hfront, Nat.mul_div_cancel_left _ (by norm_num),
        zpow_add_one₀ (by norm_num)]
      push_cast
      ring
    rw [hsame]
    exact ⟨by dsimp only; omega, hnearest⟩
  · exact ⟨hdigits, hnearest⟩

theorem add_le_of_value_le {count : ℕ} {top : ℤ} (hdigits : 10 ^ count ≤ d.digits)
    (hle : d.value ≤ 10 ^ top) : count + d.exponent ≤ top := by
  refine (zpow_le_zpow_iff_right₀ (by norm_num : (1 : ℚ) < 10)).1 ?_
  rw [zpow_add₀ (by norm_num), zpow_natCast]
  exact (mul_le_mul_of_nonneg_right (by exact_mod_cast hdigits) (ten_zpow_pos _).le).trans hle

theorem add_lt_of_value_le {count : ℕ} {top : ℤ} (hdigits : 10 ^ count < d.digits)
    (hle : d.value ≤ 10 ^ top) : count + d.exponent < top := by
  refine (zpow_lt_zpow_iff_right₀ (by norm_num : (1 : ℚ) < 10)).1 ?_
  rw [zpow_add₀ (by norm_num), zpow_natCast]
  exact (mul_lt_mul_of_pos_right (by exact_mod_cast hdigits) (ten_zpow_pos _)).trans_le hle

/-- **No decimal with fewer digits is rounded to a double** than the shortest one has. -/
theorem lt_of_nearest_eq (h : x.toModel.unpack = .finite .positive significand exponent hpos)
    {digits count : ℕ} {e : ℤ} (hdigits : digits < 10 ^ count)
    (hnearest : nearest (digits * 10 ^ e) = significand * 2 ^ exponent) :
    (shortest x.toBits).digits < 10 ^ count := by
  obtain ⟨d, top, -, -, hle, hlow, hcoarser, hshortest⟩ := exists_shortest h
  have hr := isProper_ofBits h
  obtain ⟨hvalue, -, -, -⟩ := value_ofBits h
  have hv : (0 : ℚ) < significand * 2 ^ exponent :=
    mul_pos (Nat.cast_pos.2 hpos) (two_zpow_pos exponent)
  have hdigits_pos : 0 < digits := by
    refine Nat.pos_of_ne_zero fun hzero => ?_
    rw [hzero, Nat.cast_zero, zero_mul, nearest_zero] at hnearest
    exact hv.ne hnearest
  have hcount : 0 < count := by
    refine Nat.pos_of_ne_zero fun hzero => ?_
    rw [hzero, pow_zero] at hdigits
    omega
  have hcontains := (contains_iff h (mul_pos (Nat.cast_pos.2 hdigits_pos) (ten_zpow_pos e))).2
    hnearest
  by_contra hmore
  rw [not_lt] at hmore
  -- with fewer digits there is a coarser grid, and on that one the search would have ended
  have hcoarse : count + d.exponent < top := by
    rw [hshortest] at hmore
    split_ifs at hmore with hzero
    · have hlonger : 10 ^ (count + 1) ≤ d.digits := by
        rw [pow_succ]
        dsimp only at hmore
        omega
      have := add_le_of_value_le hlonger hle
      omega
    · have hlonger : 10 ^ count < d.digits := by
        refine hmore.lt_of_ne fun hsame => hzero ?_
        rw [← hsame]
        exact Nat.mod_eq_zero_of_dvd (dvd_pow_self 10 hcount.ne')
      exact add_lt_of_value_le hlonger hle
  exact hcoarser (top - count) (by omega) (by omega)
    (hr.meets_of_lt hdigits_pos hcount hdigits (hvalue ▸ hlow) hcontains)

end Attest.Decimal
