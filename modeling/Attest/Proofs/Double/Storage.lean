import Mathlib
import Attest.Proofs.Double.Rounding

/-!
# How doubles are stored

A double is stored in 64 bits: a sign, an exponent and a significand without its first bit. Unpacked
it is a significand with an exponent in the one form that is stored, or zero, an infinity or no
number. A number in that form is packed and unpacked unchanged if it is in range, and becomes an
infinity if it is not.

The main statements are `Stored.unpack_pack`, `Stored.rounds` and `exists_bits`.
-/

namespace Attest.Double

open Float.Model Float.Model.UnpackedFloat

/-- A double without a minus sign that is a given number. -/
inductive Stands (x : Float) : ℚ → Prop where
  | zero (h : x.toModel.unpack = .zero .positive) : Stands x 0
  | finite {significand : ℕ} {exponent : ℤ} (hpos : 0 < significand)
      (h : x.toModel.unpack = .finite .positive significand exponent hpos) :
      Stands x (significand * 2 ^ exponent)

/-- A significand and an exponent in the one form that is stored, if there were no greatest
exponent: with all 53 bits, or with the least exponent. -/
structure Stored (significand : ℕ) (exponent : ℤ) : Prop where
  lt : significand < 2 ^ 53
  le : -1074 ≤ exponent
  full : 2 ^ 52 ≤ significand ∨ exponent = -1074

/-- What a double is if it comes of rounding a number: the nearest one, or infinity if that is out
of range. -/
structure Rounds (x : Float) (q : ℚ) : Prop where
  stands : nearest q < 2 ^ 1024 → Stands x (nearest q)
  infinite : 2 ^ 1024 ≤ nearest q → x.toModel.unpack = .infinity .positive

variable {x : Float} {q v : ℚ} {significand : ℕ} {exponent : ℤ} {sign : Sign}

theorem Stands.nonneg (h : Stands x v) : 0 ≤ v := by
  cases h with
  | zero => exact le_rfl
  | finite => exact mul_nonneg (Nat.cast_nonneg _) (two_zpow_pos _).le

/-- A number in stored form is in range exactly if its exponent is. -/
theorem Stored.lt_iff (h : Stored significand exponent) :
    (significand : ℚ) * 2 ^ exponent < 2 ^ 1024 ↔ exponent ≤ 971 := by
  have hexponent := two_zpow_pos exponent
  constructor
  · intro hlt
    by_contra hover
    have hfull : (2 : ℚ) ^ 52 ≤ significand := by
      exact_mod_cast h.full.resolve_right (by omega)
    have htop : (2 : ℚ) ^ 1024 ≤ 2 ^ 52 * 2 ^ exponent := by
      rw [← zpow_natCast, ← zpow_natCast, ← zpow_add₀ two_ne_zero]
      exact zpow_le_zpow_right₀ one_le_two (by omega)
    exact (htop.trans (mul_le_mul_of_nonneg_right hfull hexponent.le)).not_gt hlt
  · intro hle
    have hlt : (significand : ℚ) < 2 ^ 53 := by exact_mod_cast h.lt
    have htop : (2 : ℚ) ^ 53 * 2 ^ exponent ≤ 2 ^ 1024 := by
      rw [← zpow_natCast, ← zpow_natCast, ← zpow_add₀ two_ne_zero]
      exact zpow_le_zpow_right₀ one_le_two (by omega)
    exact (mul_lt_mul_of_pos_right hlt hexponent).trans_le htop

/-! ## From numbers to bits -/

theorem unpackSign_packComponents {exponent : BitVec 11} {significand : BitVec 52} :
    Sign.ofBitVec (unpackSign (packComponents .binary64 sign exponent significand)) = sign := by
  simp only [unpackSign, packComponents, BitVec.extractLsb]
  rw [BitVec.extractLsb'_append_eq_of_le (by omega), BitVec.extractLsb'_append_eq_of_le (by omega)]
  cases sign <;> rfl

/-- The first bit of the significand is put back. -/
theorem toNat_one_append (tail : BitVec 52) : (1#1 ++ tail).toNat = 2 ^ 52 + tail.toNat := by
  rw [BitVec.toNat_append, ← Nat.shiftLeft_add_eq_or_of_lt tail.isLt]
  rfl

theorem log2_add_one_eq_iff (h : significand < 2 ^ 53) (hpos : 0 < significand) :
    significand.log2 + 1 = Format.binary64.mantissaBits ↔ 2 ^ 52 ≤ significand := by
  have hlow := Nat.le_log2 (k := 52) hpos.ne'
  have hhigh := (Nat.log2_lt hpos.ne').2 h
  change significand.log2 + 1 = 53 ↔ _
  omega

/-- **In range a number is unpacked as it was packed.** -/
theorem Stored.unpack_pack (h : Stored significand exponent) (hpos : 0 < significand)
    (hrange : exponent ≤ 971) : (Float.Model.pack (.finite sign significand exponent hpos)).unpack =
      .finite sign significand exponent hpos := by
  obtain ⟨hlt, hle, hfull⟩ := h
  change UnpackedFloat.unpack .binary64 (UnpackedFloat.pack .binary64 _) = _
  have hfield : (exponent + Format.binary64.exponentBias +
      Format.binary64.mantissaBitsWithoutImplicit).toNat = (exponent + 1075).toNat := by
    change (exponent + 1023 + 52).toNat = _
    omega
  have hbias : (Format.binary64.exponentBias : ℤ) = 1023 := rfl
  rw [UnpackedFloat.pack]
  simp only [hfield, log2_add_one_eq_iff hlt hpos]
  rw [if_neg (by omega)]
  split_ifs with hnormal
  · have hexponent : (BitVec.ofNat 11 (exponent + 1075).toNat).toNat = (exponent + 1075).toNat := by
      rw [BitVec.toNat_ofNat]
      omega
    have htail : (1#1 ++ BitVec.ofNat 52 significand).toNat = significand := by
      rw [toNat_one_append, BitVec.toNat_ofNat]
      omega
    rw [UnpackedFloat.unpack]
    simp only [unpackMantissa_packComponents, unpackExponent_packComponents,
      unpackSign_packComponents]
    rw [if_neg, if_neg]
    · simp only [htail, hexponent, hbias]
      congr 1
      omega
    · intro hzero
      rw [hzero, BitVec.toNat_ofNat] at hexponent
      omega
    · intro htop
      rw [htop] at hexponent
      change 2047 = _ at hexponent
      omega
  · have htail : (BitVec.ofNat 52 significand).toNat = significand := by
      rw [BitVec.toNat_ofNat]
      omega
    obtain rfl := hfull.resolve_left hnormal
    rw [UnpackedFloat.unpack]
    simp only [unpackMantissa_packComponents, unpackExponent_packComponents,
      unpackSign_packComponents]
    rw [if_neg (by decide), if_pos trivial, dif_neg]
    · simp only [htail, hbias]
      rfl
    · intro hzero
      rw [hzero, BitVec.toNat_ofNat] at htail
      omega

theorem unpack_pack_of_lt (hpos : 0 < significand) (hrange : 971 < exponent) :
    (Float.Model.pack (.finite sign significand exponent hpos)).unpack = .infinity sign := by
  change UnpackedFloat.unpack .binary64 (UnpackedFloat.pack .binary64 _) = _
  rw [UnpackedFloat.pack]
  dsimp only
  rw [if_pos]
  · cases sign <;> rfl
  · change 2 ^ 11 ≤ (exponent + 1023 + 52).toNat + 1
    omega

/-- A number in stored form that is nearest to another one is what that is rounded to. -/
theorem Stored.rounds (h : Stored significand exponent) (hpos : 0 < significand)
    (hq : nearest q = significand * 2 ^ exponent) :
    Rounds (.ofModel (.pack (.finite .positive significand exponent hpos))) q := by
  constructor
  · intro hlt
    rw [hq] at hlt ⊢
    exact .finite hpos (h.unpack_pack hpos (h.lt_iff.1 hlt))
  · intro hge
    rw [hq, ← not_lt, h.lt_iff, not_le] at hge
    exact unpack_pack_of_lt hpos hge

theorem Stands.isInf (h : Stands x v) : x.isInf = false := by
  change x.toModel.unpack.isInf = false
  cases h with
  | zero h => rw [h]; rfl
  | finite hpos h => rw [h]; rfl

/-- Only what is rounded out of range is infinite. -/
theorem Rounds.isInf_iff (h : Rounds x q) : x.isInf ↔ 2 ^ 1024 ≤ nearest q := by
  refine ⟨fun hinf => ?_, fun hge => ?_⟩
  · by_contra hlt
    rw [(h.stands (not_le.1 hlt)).isInf] at hinf
    exact Bool.false_ne_true hinf
  · change x.toModel.unpack.isInf = true
    rw [h.infinite hge]
    rfl

/-! ## From bits to numbers -/

/-- **The bits of a number** are read as its significand and its exponent. -/
theorem exists_bits {hpos : 0 < significand}
    (h : x.toModel.unpack = .finite sign significand exponent hpos) :
    ∃ field tail, field = x.toBits.toNat / 2 ^ 52 % 2 ^ 11 ∧ tail = x.toBits.toNat % 2 ^ 52 ∧
      field < 2047 ∧ significand = (if field = 0 then tail else 2 ^ 52 + tail) ∧
      exponent = (max field 1 : ℕ) - 1075 := by
  have hfield : (@unpackExponent .binary64 x.toBits.toBitVec).toNat =
      x.toBits.toNat / 2 ^ 52 % 2 ^ 11 := by
    rw [unpackExponent, BitVec.toNat_cast, BitVec.extractLsb_toNat, Nat.shiftRight_eq_div_pow]
    rfl
  have htail : (@unpackMantissa .binary64 x.toBits.toBitVec).toNat =
      x.toBits.toNat % 2 ^ 52 := by
    rw [unpackMantissa, BitVec.toNat_cast, BitVec.extractLsb_toNat]
    rfl
  refine ⟨_, _, rfl, rfl, ?_⟩
  rw [← hfield, ← htail]
  have hbias : (Format.binary64.exponentBias : ℤ) = 1023 := rfl
  change UnpackedFloat.unpack .binary64 x.toBits.toBitVec = _ at h
  rw [UnpackedFloat.unpack] at h
  dsimp only at h
  split_ifs at h with htop hnan hzero hnone
  · obtain ⟨-, rfl, rfl⟩ := UnpackedFloat.finite.inj h
    rw [hbias, hzero]
    exact ⟨by decide, rfl, rfl⟩
  · obtain ⟨-, rfl, rfl⟩ := UnpackedFloat.finite.inj h
    have hlt := (@unpackExponent .binary64 x.toBits.toBitVec).isLt
    change _ < 2048 at hlt
    have hne := BitVec.toNat_ne.1 hzero
    have hne_top := BitVec.toNat_ne.1 htop
    change _ ≠ 0 at hne
    change _ ≠ 2047 at hne_top
    rw [hbias, toNat_one_append, if_neg hne, max_eq_left (by omega)]
    exact ⟨by omega, rfl, by omega⟩

/-- What is unpacked is in stored form and in range. -/
theorem stored_of_unpack {hpos : 0 < significand}
    (h : x.toModel.unpack = .finite sign significand exponent hpos) :
    Stored significand exponent ∧ exponent ≤ 971 := by
  obtain ⟨field, tail, -, htail, hfield, hsignificand, hexponent⟩ := exists_bits h
  have htail : tail < 2 ^ 52 := htail ▸ Nat.mod_lt _ (by norm_num)
  split_ifs at hsignificand with hzero
  · exact ⟨⟨by omega, by omega, by omega⟩, by omega⟩
  · exact ⟨⟨by omega, by omega, by omega⟩, by omega⟩

end Attest.Double
