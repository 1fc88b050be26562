import Mathlib
import Attest.Proofs.Double.Arithmetic
import Attest.Proofs.Json.Numbers

/-!
# The doubles that numbers stand for

The digits of a number that fit into 64 bits are gathered, the number is taken for these times a
power of ten, and that is computed in doubles: each factor is rounded and so is the result, or the
quotient and below `10 ^ -308` a second quotient. That need not be the double nearest to what is
written. What is computed is in range if what is written is not above `2 ^ 1024 - 2 ^ 973`, three
units below the greatest double.

The main statements are `finds_scaled?`, `Gathered.value?_eq_floating` and `Gathered.computed_lt`.
-/

namespace Attest.Json

open Double

variable {significand : ℕ} {front left digits : List Char} {n : Numeral} {exponent : ℤ}

/-! ## Digits in 64 bits -/

/-- The front of some digits that still fits into 64 bits behind a significand, if the next of the
digits that are left does not. -/
structure Front (significand : ℕ) (front left : List Char) : Prop where
  fits : Nat.ofDigitChars 10 front significand < 2 ^ 64
  longest : ∀ c ∈ left.head?, 2 ^ 64 ≤ Nat.ofDigitChars 10 (front ++ [c]) significand

theorem le_ofDigitChars (digits : List Char) (significand : ℕ) :
    significand ≤ Nat.ofDigitChars 10 digits significand := by
  rw [Nat.ofDigitChars_eq_ofDigitChars_zero]
  exact (Nat.le_mul_of_pos_left _ (by positivity)).trans (Nat.le_add_right _ _)

theorem gather_eq (h : Front significand front left) :
    gather significand (front ++ left) = (Nat.ofDigitChars 10 front significand, left) := by
  induction front generalizing significand with
  | nil =>
    rw [Nat.ofDigitChars_nil, List.nil_append]
    cases left with
    | nil => rfl
    | cons c left =>
      have hover := h.longest c rfl
      rw [List.nil_append, Nat.ofDigitChars_cons, Nat.ofDigitChars_nil, Nat.mul_comm] at hover
      rw [gather]
      exact if_neg (not_lt.2 hover)
  | cons c front ih =>
    have hfits := h.fits
    rw [Nat.ofDigitChars_cons, Nat.mul_comm] at hfits ⊢
    rw [List.cons_append, gather]
    refine (if_pos ((le_ofDigitChars _ _).trans_lt hfits)).trans (ih ⟨hfits, fun d hd => ?_⟩)
    have hover := h.longest d hd
    rwa [List.cons_append, Nat.ofDigitChars_cons, Nat.mul_comm] at hover

theorem exists_front (h : significand < 2 ^ 64) (digits : List Char) :
    ∃ front left, digits = front ++ left ∧ Front significand front left := by
  induction digits generalizing significand with
  | nil => exact ⟨[], [], rfl, h, by simp⟩
  | cons c digits ih =>
    by_cases hnext : 10 * significand + (c.toNat - '0'.toNat) < 2 ^ 64
    · obtain ⟨front, left, rfl, hfits, hlongest⟩ := ih hnext
      refine ⟨c :: front, left, rfl, ?_, fun d hd => ?_⟩
      · rwa [Nat.ofDigitChars_cons]
      · rw [List.cons_append, Nat.ofDigitChars_cons]
        exact hlongest d hd
    · refine ⟨[], c :: digits, rfl, h, fun d hd => ?_⟩
      obtain rfl := Option.some.inj hd
      rw [List.nil_append, Nat.ofDigitChars_cons, Nat.ofDigitChars_nil]
      exact not_lt.1 hnext

/-! ## What is written and what is gathered of it -/

/-- The power of ten that is written behind the digits. -/
def Numeral.power (n : Numeral) : ℤ :=
  match n.exponent with
  | none => 0
  | some (negative, digits) => (if negative then -1 else 1) * Nat.ofDigitChars 10 digits 0

/-- The magnitude of a number as it is written. -/
def Numeral.written (n : Numeral) : ℚ :=
  Nat.ofDigitChars 10 (n.whole ++ n.fraction.getD []) 0 *
    10 ^ (n.power - (n.fraction.getD []).length)

/-- A significand and a power of ten that a number is taken for. Of the digits in front of the point
those that are left over still count as places; those after it do not. -/
inductive Gathered (n : Numeral) : ℕ → ℤ → Prop where
  | intro {front left front' left' : List Char} (hwhole : n.whole = front ++ left)
      (hfront : Front 0 front left) (hfraction : n.fraction.getD [] = front' ++ left')
      (hfront' : Front (Nat.ofDigitChars 10 front 0) front' left') :
      Gathered n (Nat.ofDigitChars 10 (front ++ front') 0)
        (left.length - front'.length + n.power)

theorem exists_gathered (n : Numeral) : ∃ significand exponent, Gathered n significand exponent := by
  obtain ⟨front, left, hwhole, hfront⟩ := exists_front (Nat.two_pow_pos 64) n.whole
  obtain ⟨front', left', hfraction, hfront'⟩ := exists_front hfront.fits (n.fraction.getD [])
  exact ⟨_, _, .intro hwhole hfront hfraction hfront'⟩

theorem Gathered.lt (h : Gathered n significand exponent) : significand < 2 ^ 64 := by
  obtain ⟨-, -, -, hfront'⟩ := h
  rw [Nat.ofDigitChars_append]
  exact hfront'.fits

theorem Numeral.writtenExponent_eq (n : Numeral) : n.writtenExponent = n.power := by
  rw [writtenExponent, power]
  rcases n.exponent with _ | ⟨negative, digits⟩
  · rfl
  · cases negative <;> simp [decimalValue_eq]

theorem Gathered.magnitude?_eq (h : Gathered n significand exponent) :
    n.magnitude? = scaled? significand exponent := by
  obtain ⟨hwhole, hfront, hfraction, hfront'⟩ := h
  rw [Numeral.magnitude?, hwhole, hfraction]
  dsimp only
  rw [gather_eq hfront]
  dsimp only
  rw [gather_eq hfront', ← Nat.ofDigitChars_append, Numeral.writtenExponent_eq]
  dsimp only
  rw [List.length_append, Nat.add_sub_cancel]

/-! ## What is computed -/

/-- A significand times a power of ten as it is computed in doubles, if there were no greatest
one. -/
def computed (significand : ℕ) (exponent : ℤ) : ℚ :=
  if 0 ≤ exponent then nearest (nearest significand * nearest (10 ^ exponent))
  else if -308 ≤ exponent then nearest (nearest significand / nearest (10 ^ (-exponent)))
  else nearest (nearest (nearest significand / nearest (10 ^ 308)) / nearest (10 ^ (-exponent - 308)))

/-- With few digits and a small power of ten both factors are doubles, and what is computed is the
double nearest to what is meant. -/
theorem computed_eq_nearest (h : significand < 2 ^ 53) (hlow : -22 ≤ exponent)
    (hhigh : exponent ≤ 22) :
    computed significand exponent = nearest (significand * 10 ^ exponent) := by
  rw [computed, nearest_eq_self (isDouble_natCast h)]
  split_ifs with hsign hsmall
  · obtain ⟨e, rfl⟩ := Int.eq_ofNat_of_zero_le hsign
    rw [zpow_natCast, nearest_eq_self (isDouble_ten_pow (by omega))]
  · obtain ⟨e, he⟩ := Int.eq_ofNat_of_zero_le (show 0 ≤ -exponent by omega)
    rw [show exponent = -e by omega, neg_neg, zpow_neg, zpow_natCast,
      nearest_eq_self (isDouble_ten_pow (by omega)), div_eq_mul_inv]
  · omega

theorem nearest_natCast_le (h : significand < 2 ^ 64) : nearest significand ≤ 2 ^ 64 := by
  refine nearest_le (isDouble_two_pow 64) ?_ (Nat.cast_nonneg _)
  exact_mod_cast h.le

theorem one_le_nearest {q : ℚ} (h : 1 ≤ q) : 1 ≤ nearest q :=
  le_nearest (by exact_mod_cast isDouble_natCast (n := 1) (by norm_num)) h (zero_le_one.trans h)

/-- A quotient by what is rounded to at least a power of two. -/
theorem nearest_div_le {v p : ℚ} {a b : ℤ} (hnonneg : 0 ≤ v) (hv : v ≤ 2 ^ a) (hp : 2 ^ b ≤ p)
    (hb : -1074 ≤ b) (hdiff : -1074 ≤ a - b) : nearest (v / nearest p) ≤ 2 ^ (a - b) := by
  have hpos := two_zpow_pos b
  have hfactor := le_nearest (isDouble_two_zpow hb) hp (hpos.le.trans hp)
  have hpositive : 0 < nearest p := hpos.trans_le hfactor
  refine nearest_le (isDouble_two_zpow hdiff) ?_ (div_nonneg hnonneg hpositive.le)
  rw [zpow_sub₀ two_ne_zero]
  exact div_le_div₀ (two_zpow_pos a).le hv hpos hfactor

theorem quotient_le {v p : ℚ} (hnonneg : 0 ≤ v) (hv : v ≤ 2 ^ 64) (hp : 1 ≤ p) :
    nearest (v / nearest p) ≤ 2 ^ 64 := by
  exact_mod_cast nearest_div_le (a := (64 : ℕ)) (b := 0) hnonneg (by exact_mod_cast hv)
    (by exact_mod_cast hp) (by norm_num) (by norm_num)

/-- A quotient is in range. -/
theorem quotient_lt {v p : ℚ} (hnonneg : 0 ≤ v) (hv : v ≤ 2 ^ 64) (hp : 1 ≤ p) :
    nearest (v / nearest p) < 2 ^ 1024 :=
  (quotient_le hnonneg hv hp).trans_lt (pow_lt_pow_right₀ one_lt_two (by norm_num))

theorem quotient_nonneg {v p : ℚ} (hnonneg : 0 ≤ v) (hp : 1 ≤ p) : 0 ≤ nearest (v / nearest p) :=
  nearest_nonneg (div_nonneg hnonneg (zero_le_one.trans (one_le_nearest hp)))

/-- Between which powers of two the greatest power of ten in range lies, and the next one. -/
theorem ten_pow_bounds : (2 : ℚ) ^ 1023 ≤ 10 ^ 308 ∧ (10 : ℚ) ^ 308 < 2 ^ 1024 - 2 ^ 970 ∧
    (2 : ℚ) ^ 1024 ≤ 10 ^ 309 := by
  have hbounds : 2 ^ 1023 ≤ 10 ^ 308 ∧ 10 ^ 308 + 2 ^ 970 < 2 ^ 1024 ∧ 2 ^ 1024 ≤ 10 ^ 309 := by
    decide +kernel
  rw [lt_sub_iff_add_lt]
  exact_mod_cast hbounds

theorem stands_toFloat (h : significand < 2 ^ 64) :
    Stands (UInt64.ofNat significand).toFloat (nearest significand) := by
  have hrounds := rounds_toFloat (UInt64.ofNat significand)
  rw [UInt64.toNat_ofNat', Nat.mod_eq_of_lt h] at hrounds
  refine hrounds.stands ((nearest_natCast_le h).trans_lt ?_)
  exact pow_lt_pow_right₀ one_lt_two (by norm_num)

theorem stands_powerOfTen {e : ℕ} (h : e ≤ 308) : Stands (powerOfTen e) (nearest (10 ^ e)) := by
  refine (rounds_ofScientific (by omega)).stands ?_
  rw [nearest_lt_iff (by positivity)]
  exact (pow_le_pow_right₀ (by norm_num) h).trans_lt ten_pow_bounds.2.1

/-- What is found for a number that is computed: a double, unless it is out of range. -/
structure Finds (found : Option Float) (v : ℚ) : Prop where
  some : v < 2 ^ 1024 → ∃ x, found = some x ∧ Stands x v
  none : 2 ^ 1024 ≤ v → found = none

theorem finds_some {x : Float} {v : ℚ} (h : Stands x v) (hrange : v < 2 ^ 1024) :
    Finds (some x) v :=
  ⟨fun _ => ⟨x, rfl, h⟩, fun hge => absurd hrange (not_lt.2 hge)⟩

theorem finds_rounded {x : Float} {q : ℚ} (h : Rounds x q) :
    Finds (if x.isInf then none else some x) (nearest q) := by
  refine ⟨fun hlt => ⟨x, if_neg ?_, h.stands hlt⟩, fun hge => if_pos (h.isInf_iff.2 hge)⟩
  rw [h.isInf_iff, not_le]
  exact hlt

theorem stands_zero : Stands 0 0 := .zero rfl

/-- A quotient by a power of ten stays in range. -/
theorem stands_div_powerOfTen {x : Float} {v : ℚ} {e : ℕ} (hx : Stands x v) (hv : v ≤ 2 ^ 64)
    (he : e ≤ 308) : Stands (x / powerOfTen e) (nearest (v / nearest (10 ^ e))) := by
  have hone : (1 : ℚ) ≤ 10 ^ e := one_le_pow₀ (by norm_num)
  have hne : nearest (10 ^ e) ≠ 0 := by linarith [one_le_nearest hone]
  exact (hx.div (stands_powerOfTen he) hne).stands (quotient_lt hx.nonneg hv hone)

theorem finds_scaled?_nonneg (h : significand < 2 ^ 64) (e : ℕ) :
    Finds (scaled? significand e) (nearest (nearest significand * nearest (10 ^ e))) := by
  have hwhole := stands_toFloat h
  rw [scaled?, if_pos (Int.natCast_nonneg e)]
  by_cases hlarge : (e : ℤ) ≤ 308
  · rw [if_pos hlarge, Int.toNat_natCast]
    exact finds_rounded (hwhole.mul (stands_powerOfTen (by omega)))
  · rw [if_neg hlarge]
    rcases Nat.eq_zero_or_pos significand with rfl | hpos
    · rw [if_pos rfl, Nat.cast_zero, nearest_zero, zero_mul, nearest_zero]
      exact finds_some stands_zero (by positivity)
    · -- the power of ten alone is out of range
      rw [if_neg hpos.ne']
      have htop := isDouble_two_pow 1024
      have hpower : (2 : ℚ) ^ 1024 ≤ 10 ^ e :=
        ten_pow_bounds.2.2.trans (pow_le_pow_right₀ (by norm_num) (by omega))
      have hfactor := le_nearest htop hpower (by positivity)
      have hone : 1 ≤ nearest significand := one_le_nearest (by exact_mod_cast hpos)
      have hproduct := hfactor.trans (le_mul_of_one_le_left (le_trans (by positivity) hfactor) hone)
      have hover := le_nearest htop hproduct (le_trans (by positivity) hproduct)
      exact ⟨fun hlt => absurd hlt (not_lt.2 hover), fun _ => rfl⟩

/-- Two powers of ten down nothing is left. -/
theorem quotients_eq_zero (h : significand < 2 ^ 64) {e : ℕ} (he : 308 < e) :
    nearest (nearest (nearest significand / nearest (10 ^ 308)) / nearest (10 ^ e)) = 0 := by
  have hnonneg : 0 ≤ nearest significand := nearest_nonneg (Nat.cast_nonneg _)
  have hquotient := quotient_nonneg hnonneg (one_le_pow₀ (by norm_num) : (1 : ℚ) ≤ 10 ^ 308)
  have hfirst : nearest (nearest significand / nearest (10 ^ 308)) ≤ 2 ^ (-959 : ℤ) :=
    nearest_div_le (a := (64 : ℕ)) (b := (1023 : ℕ)) hnonneg
      (by exact_mod_cast nearest_natCast_le h) (by exact_mod_cast ten_pow_bounds.1) (by norm_num)
      (by norm_num)
  have hpower : (2 : ℚ) ^ 1024 ≤ 10 ^ e :=
    ten_pow_bounds.2.2.trans (pow_le_pow_right₀ (by norm_num) he)
  have hsecond := le_nearest (isDouble_two_pow 1024) hpower (by positivity)
  refine nearest_eq_zero (div_nonneg hquotient (le_trans (by positivity) hsecond)) ?_
  rw [div_le_iff₀ (lt_of_lt_of_le (by positivity) hsecond)]
  refine hfirst.trans ((?_ : _ ≤ 2 ^ (-1076 : ℤ) * (2 : ℚ) ^ 1024).trans
    (mul_le_mul_of_nonneg_left hsecond (two_zpow_pos _).le))
  rw [← zpow_natCast, ← zpow_add₀ two_ne_zero]
  exact zpow_le_zpow_right₀ one_le_two (by norm_num)

/-- **What is found for a number is what is computed in doubles.** -/
theorem finds_scaled? (h : significand < 2 ^ 64) (exponent : ℤ) :
    Finds (scaled? significand exponent) (computed significand exponent) := by
  have hwhole := stands_toFloat h
  have hle := nearest_natCast_le h
  rw [computed]
  split_ifs with hsign hsmall
  · obtain ⟨e, rfl⟩ := Int.eq_ofNat_of_zero_le hsign
    rw [zpow_natCast]
    exact finds_scaled?_nonneg h e
  · obtain ⟨e, he⟩ := Int.eq_ofNat_of_zero_le (show 0 ≤ -exponent by omega)
    rw [scaled?, if_neg hsign, if_pos hsmall, he, Int.toNat_natCast, zpow_natCast]
    exact finds_some (stands_div_powerOfTen hwhole hle (by omega))
      (quotient_lt hwhole.nonneg hle (one_le_pow₀ (by norm_num)))
  · obtain ⟨e, he⟩ := Int.eq_ofNat_of_zero_le (show 0 ≤ -exponent - 308 by omega)
    have hfirst := stands_div_powerOfTen (e := 308) hwhole hle le_rfl
    have hbound := quotient_le hwhole.nonneg hle (one_le_pow₀ (by norm_num) : (1 : ℚ) ≤ 10 ^ 308)
    rw [scaled?, if_neg hsign, if_neg hsmall, he, Int.toNat_natCast, zpow_natCast]
    split_ifs with htwice
    · exact finds_some (stands_div_powerOfTen hfirst hbound (by omega))
        (quotient_lt hfirst.nonneg hbound (one_le_pow₀ (by norm_num)))
    · rw [quotients_eq_zero h (by omega)]
      exact finds_some stands_zero (by positivity)

theorem Gathered.finds (h : Gathered n significand exponent) :
    Finds n.magnitude? (computed significand exponent) :=
  h.magnitude?_eq ▸ finds_scaled? h.lt exponent

/-! ## The range of what is written -/

theorem ofDigitChars_lt (h : ∀ c ∈ digits, c.isDigit) :
    Nat.ofDigitChars 10 digits 0 < 10 ^ digits.length := by
  induction digits with
  | nil => exact Nat.one_pos
  | cons c digits ih =>
    rw [List.forall_mem_cons] at h
    have hdigit := (Text.digitChar_of_isDigit h.1).1
    have hrest := ih h.2
    rw [Nat.ofDigitChars_cons, Nat.ofDigitChars_eq_ofDigitChars_zero, List.length_cons, pow_succ]
    nlinarith

/-- Digits after the point that are gathered although digits in front of it are left over are less
than those. -/
theorem mul_pow_le {front left front' : List Char} (hdigits : ∀ c ∈ front', c.isDigit)
    (hlongest : ∀ c ∈ left.head?, 2 ^ 64 ≤ Nat.ofDigitChars 10 (front ++ [c]) 0)
    (hfits : Nat.ofDigitChars 10 front' (Nat.ofDigitChars 10 front 0) < 2 ^ 64) :
    Nat.ofDigitChars 10 front' 0 * 10 ^ left.length ≤
      Nat.ofDigitChars 10 left 0 * 10 ^ front'.length + Nat.ofDigitChars 10 front' 0 := by
  cases left with
  | nil => simp
  | cons c left =>
    cases front' with
    | nil => simp
    | cons d front' =>
      have hover := hlongest c rfl
      rw [Nat.ofDigitChars_append, Nat.ofDigitChars_cons, Nat.ofDigitChars_nil] at hover
      rw [Nat.ofDigitChars_cons] at hfits
      have hless := (le_ofDigitChars _ _).trans_lt hfits
      have hdigit : d.toNat - '0'.toNat + 1 ≤ c.toNat - '0'.toNat := by omega
      rw [List.forall_mem_cons] at hdigits
      have hrest := ofDigitChars_lt hdigits.2
      rw [Nat.ofDigitChars_cons, Nat.ofDigitChars_cons, Nat.ofDigitChars_eq_ofDigitChars_zero,
        Nat.ofDigitChars_eq_ofDigitChars_zero (l := left), List.length_cons, List.length_cons,
        Nat.mul_zero, Nat.zero_add, Nat.zero_add]
      generalize d.toNat - '0'.toNat = next at hdigit
      generalize c.toNat - '0'.toNat = excess at hdigit
      calc (10 ^ front'.length * next + Nat.ofDigitChars 10 front' 0) * 10 ^ (left.length + 1)
        _ ≤ 10 ^ front'.length * (next + 1) * 10 ^ (left.length + 1) := by
          refine Nat.mul_le_mul_right _ ?_
          rw [Nat.mul_add, Nat.mul_one]
          exact Nat.add_le_add_left hrest.le _
        _ ≤ 10 ^ front'.length * excess * 10 ^ (left.length + 1) :=
          Nat.mul_le_mul_right _ (Nat.mul_le_mul_left _ hdigit)
        _ = 10 ^ left.length * excess * 10 ^ (front'.length + 1) := by ring
        _ ≤ _ := Nat.le_add_right_of_le (Nat.mul_le_mul_right _ (Nat.le_add_right _ _))

/-- **What is gathered is not above what is written.** -/
theorem Gathered.mul_le_written (h : Gathered n significand exponent)
    (hdigits : ∀ c ∈ n.fraction.getD [], c.isDigit) :
    significand * (10 : ℚ) ^ exponent ≤ n.written := by
  obtain @⟨front, left, front', left', hwhole, hfront, hfraction, hfront'⟩ := h
  rw [hfraction] at hdigits
  have hless := mul_pow_le (fun c hc => hdigits c (List.mem_append_left _ hc)) hfront.longest
    hfront'.fits
  have hwritten : Nat.ofDigitChars 10 (front ++ front') 0 * (10 ^ left.length * 10 ^ left'.length) ≤
      Nat.ofDigitChars 10 (front ++ left ++ (front' ++ left')) 0 := by
    simp only [Nat.ofDigitChars_append]
    rw [Nat.ofDigitChars_eq_ofDigitChars_zero (l := left'),
      @Nat.ofDigitChars_eq_ofDigitChars_zero front' (Nat.ofDigitChars 10 left _),
      @Nat.ofDigitChars_eq_ofDigitChars_zero front' (Nat.ofDigitChars 10 front 0),
      @Nat.ofDigitChars_eq_ofDigitChars_zero left (Nat.ofDigitChars 10 front 0)]
    refine le_trans ?_ (Nat.le_add_right _ _)
    calc (10 ^ front'.length * Nat.ofDigitChars 10 front 0 + Nat.ofDigitChars 10 front' 0) *
          (10 ^ left.length * 10 ^ left'.length)
      _ = 10 ^ left'.length * (10 ^ front'.length * (10 ^ left.length * Nat.ofDigitChars 10 front 0) +
          Nat.ofDigitChars 10 front' 0 * 10 ^ left.length) := by ring
      _ ≤ 10 ^ left'.length * (10 ^ front'.length * (10 ^ left.length * Nat.ofDigitChars 10 front 0) +
          (Nat.ofDigitChars 10 left 0 * 10 ^ front'.length + Nat.ofDigitChars 10 front' 0)) :=
        Nat.mul_le_mul_left _ (Nat.add_le_add_left hless _)
      _ = _ := by ring
  have hplaces : (10 : ℚ) ^ (left.length - front'.length + n.power : ℤ) =
      (10 ^ left.length * 10 ^ left'.length : ℕ) *
        10 ^ (n.power - (front' ++ left').length : ℤ) := by
    push_cast
    rw [← zpow_natCast, ← zpow_natCast, ← zpow_add₀ (by norm_num), ← zpow_add₀ (by norm_num),
      List.length_append]
    congr 1
    push_cast
    ring
  rw [Numeral.written, hwhole, hfraction, hplaces, ← mul_assoc]
  exact mul_le_mul_of_nonneg_right (by exact_mod_cast hwritten) (by positivity)

/-- **What is written well below the end of the range is computed in range.** -/
theorem Gathered.computed_lt (h : Gathered n significand exponent)
    (hdigits : ∀ c ∈ n.fraction.getD [], c.isDigit) (hbound : n.written ≤ 2 ^ 1024 - 2 ^ 973) :
    computed significand exponent < 2 ^ 1024 := by
  have hle := (h.mul_le_written hdigits).trans hbound
  have hwhole := nearest_natCast_le h.lt
  have hnonneg : 0 ≤ nearest significand := nearest_nonneg (Nat.cast_nonneg _)
  rw [computed]
  split_ifs with hsign hsmall
  · rcases Nat.eq_zero_or_pos significand with rfl | hpos
    · rw [Nat.cast_zero, nearest_zero, zero_mul, nearest_zero]
      positivity
    -- each factor is at most one part in `2 ^ 53` too large
    have hone : (1 : ℚ) ≤ 10 ^ exponent := one_le_zpow₀ (by norm_num) hsign
    have hfactor := nearest_le_mul (show (1 : ℚ) ≤ significand by exact_mod_cast hpos)
    have hpower := nearest_le_mul hone
    have hproduct := mul_le_mul hfactor hpower (zero_le_one.trans (one_le_nearest hone))
      (by positivity)
    rw [nearest_lt_iff (mul_nonneg hnonneg (zero_le_one.trans (one_le_nearest hone)))]
    obtain ⟨half, hhalf, h970, -, -, h1024⟩ := exists_half_unit
    have h973 : (2 : ℚ) ^ 973 = half * 2 ^ 3 := h970 ▸ pow_add 2 970 3
    rw [h1024, h973] at hle
    rw [h1024, h970]
    calc nearest significand * nearest (10 ^ exponent)
      _ ≤ significand * 10 ^ exponent * (1 + 1 / 2 ^ 53) ^ 2 := hproduct.trans_eq (by ring)
      _ ≤ (2 ^ 54 * half - half * 2 ^ 3) * (1 + 1 / 2 ^ 53) ^ 2 :=
        mul_le_mul_of_nonneg_right hle (by positivity)
      _ < 2 ^ 54 * half - half := by linarith only [hhalf]
  · have hpower : (1 : ℚ) ≤ 10 ^ (-exponent) := one_le_zpow₀ (by norm_num) (by omega)
    exact quotient_lt hnonneg hwhole hpower
  · have hpower : (1 : ℚ) ≤ 10 ^ (-exponent - 308) := one_le_zpow₀ (by norm_num) (by omega)
    have hpower' : (1 : ℚ) ≤ 10 ^ 308 := one_le_pow₀ (by norm_num)
    exact quotient_lt (quotient_nonneg hnonneg hpower') (quotient_le hnonneg hwhole hpower') hpower

/-! ## Numbers that are no integers -/

/-- **A number that is no integer is what is computed for it**, with its sign. -/
theorem Gathered.value?_eq_floating (h : Gathered n significand exponent) (hnone : n.integer? = none)
    (hrange : computed significand exponent < 2 ^ 1024) :
    ∃ x, n.value? = some (.floating n.negative x) ∧ Stands x (computed significand exponent) := by
  obtain ⟨x, hx, hstands⟩ := h.finds.some hrange
  refine ⟨x, ?_, hstands⟩
  rw [Numeral.value?, hnone, hx]
  rfl

theorem Gathered.value?_eq_none (h : Gathered n significand exponent) (hnone : n.integer? = none)
    (hrange : 2 ^ 1024 ≤ computed significand exponent) : n.value? = none := by
  rw [Numeral.value?, hnone, h.finds.none hrange]
  rfl

/-- A number that stands for no integer of 64 bits, and how it is written. -/
structure Floating (n : Numeral) (w : List Char) : Prop where
  numberOf : Grammar.NumberOf n w
  not_integer : ∀ value : ℤ, -2 ^ 63 ≤ value → value < 2 ^ 64 → w ≠ signed value

theorem Floating.integer?_eq_none {w : List Char} (h : Floating n w) : n.integer? = none := by
  rw [Option.eq_none_iff_forall_ne_some]
  intro value hvalue
  obtain ⟨hw, hlow, hhigh⟩ := Grammar.exists_numberOf_integer_iff.1
    ⟨n, h.numberOf, Numeral.value?_eq_integer_iff.2 hvalue⟩
  exact h.not_integer value hlow hhigh hw

theorem Floating.isDigit {w : List Char} (h : Floating n w) :
    ∀ c ∈ n.fraction.getD [], c.isDigit := by
  obtain @⟨_, _, -, hfraction, -⟩ := h.numberOf
  generalize n.fraction = fraction at hfraction
  cases hfraction with
  | none => exact nofun
  | some hdigits => exact hdigits.2

end Attest.Json
