import Mathlib
import Attest.Curve.Field
import Attest.Curve.Scalar

/-!
# The two moduli are prime

Coordinates are residues modulo `fieldPrime` and scalars are residues modulo `order`. Both numbers
have 256 bits, so trial division is out of reach; Pocklington's test is not. It asks for some
primes that divide `N - 1` and whose product exceeds the square root of `N`, and for one base whose
powers tell that each of them divides `q - 1` for every prime factor `q` of `N`.

The main statements are `prime_of_passes` (the test), `prime_fieldPrime` and `prime_order`. The
primes that the test is given are proved prime by the test in turn, down to numbers that trial
division reaches.
-/

namespace Attest.Primality

/-- A power modulo `m`, for an exponent of at most 256 bits. -/
def powerMod (m base exponent : ℕ) : ℕ :=
  repeated (fun a b => a * b % m) (1 % m) (base % m) 256 exponent

theorem powerMod_eq {exponent : ℕ} (m base : ℕ) (h : exponent < 2 ^ 256) :
    powerMod m base exponent = base ^ exponent % m := by
  refine @repeated_eq _ _ _ _ (fun k => base ^ k % m) ?_ ?_ ?_ _ _ h
  · rw [pow_zero]
  · rw [pow_one]
  · intro a b
    rw [pow_add, Nat.mul_mod]

/-- What the test checks of one prime factor of `N - 1`: the power that leaves it out differs from
one modulo every prime factor of `N`. -/
def Separates (N base factor : ℕ) : Prop :=
  factor ∣ N - 1 ∧ Nat.gcd (powerMod N base ((N - 1) / factor) + (N - 1)) N = 1

instance (N base factor : ℕ) : Decidable (Separates N base factor) :=
  inferInstanceAs (Decidable (_ ∧ _))

/-- A power that is one modulo `N` is one modulo every divisor of `N`. -/
theorem pow_eq_one_of_dvd {N q base k : ℕ} (hq : q ∣ N) (hN : 1 < N) (h : base ^ k % N = 1) :
    (base : ZMod q) ^ k = 1 := by
  have hmod : base ^ k ≡ 1 [MOD N] := by rw [Nat.ModEq, h, Nat.mod_eq_of_lt hN]
  have := (ZMod.natCast_eq_natCast_iff _ _ _).2 (hmod.of_dvd hq)
  simpa using this

/-- A separated prime factor of `N - 1` divides `q - 1` for every prime factor `q` of `N`: the
order of the base modulo `q` divides `N - 1`, but not what is left of `N - 1` without it. -/
theorem Separates.dvd_sub_one {N base factor q : ℕ} (hs : Separates N base factor)
    (hN : 1 < N) (hlt : N ≤ 2 ^ 256) (hpow : powerMod N base (N - 1) = 1)
    (hfactor : factor.Prime) (hq : q.Prime) (hqN : q ∣ N) : factor ∣ q - 1 := by
  have : Fact q.Prime := ⟨hq⟩
  obtain ⟨⟨rest, hrest⟩, hgcd⟩ := hs
  have hdiv : (N - 1) / factor = rest := by rw [hrest, Nat.mul_div_cancel_left _ hfactor.pos]
  have hle : rest ≤ N - 1 := hdiv ▸ Nat.div_le_self _ _
  rw [powerMod_eq _ _ (by omega)] at hpow
  rw [hdiv, powerMod_eq _ _ (by omega)] at hgcd
  have hone : (base : ZMod q) ^ (N - 1) = 1 := pow_eq_one_of_dvd hqN hN hpow
  have hne : (base : ZMod q) ^ rest ≠ 1 := by
    intro heq
    -- then `q` divides both the power less one and `N`
    have hcast : ((base ^ rest % N + (N - 1) : ℕ) : ZMod q) = 0 := by
      have hNzero : (N : ZMod q) = 0 := (ZMod.natCast_eq_zero_iff _ _).2 hqN
      have hmod : ((base ^ rest % N : ℕ) : ZMod q) = (base : ZMod q) ^ rest := by
        rw [← Nat.cast_pow]
        exact (ZMod.natCast_eq_natCast_iff _ _ _).2 ((Nat.mod_modEq _ _).of_dvd hqN)
      rw [Nat.cast_add, Nat.cast_sub hN.le, hmod, heq, hNzero]
      simp
    have hboth := Nat.dvd_gcd ((ZMod.natCast_eq_zero_iff _ _).1 hcast) hqN
    rw [hgcd] at hboth
    exact hq.one_lt.ne' (Nat.dvd_one.1 hboth)
  have horder : orderOf (base : ZMod q) ∣ factor * rest := hrest ▸ orderOf_dvd_of_pow_eq_one hone
  have hfactor_dvd : factor ∣ orderOf (base : ZMod q) := by
    by_contra hnot
    have hcoprime := (hfactor.coprime_iff_not_dvd.2 hnot).symm
    exact hne (orderOf_dvd_iff_pow_eq_one.1 (hcoprime.dvd_of_dvd_mul_left horder))
  have hbase : (base : ZMod q) ≠ 0 := by
    intro hzero
    rw [hzero, zero_pow (by omega)] at hone
    exact zero_ne_one hone
  exact hfactor_dvd.trans (ZMod.orderOf_dvd_card_sub_one hbase)

/-- What Pocklington's test checks of a number, a base and some factors of `N - 1`. -/
def Passes (N base : ℕ) (factors : List ℕ) : Prop :=
  (1 < N ∧ N ≤ 2 ^ 256) ∧ powerMod N base (N - 1) = 1 ∧ factors.Nodup ∧
    N < factors.prod * factors.prod ∧ ∀ factor ∈ factors, Separates N base factor

instance (N base : ℕ) (factors : List ℕ) : Decidable (Passes N base factors) :=
  inferInstanceAs (Decidable (_ ∧ _))

/-- **Pocklington's test.** A number that passes the test with prime factors is prime. -/
theorem prime_of_passes {N : ℕ} (base : ℕ) (factors : List ℕ) (h : Passes N base factors)
    (hprime : ∀ q ∈ factors, q.Prime) : N.Prime := by
  obtain ⟨⟨hone, hlt⟩, hpow, hdistinct, hlarge, hseparates⟩ := h
  by_contra hcomposite
  have hminFac := Nat.minFac_prime hone.ne'
  have hprod : factors.prod ∣ N.minFac - 1 := by
    have hdvd := Finset.prod_primes_dvd (s := factors.toFinset) (N.minFac - 1)
      (fun q hq => (hprime q (List.mem_toFinset.1 hq)).prime)
      (fun q hq => by
        rw [List.mem_toFinset] at hq
        exact (hseparates q hq).dvd_sub_one hone hlt hpow (hprime q hq) hminFac
          (Nat.minFac_dvd N))
    rwa [List.prod_toFinset (fun q => q) hdistinct, List.map_id'] at hdvd
  have hle := Nat.le_of_dvd (by have := hminFac.two_le; omega) hprod
  have hsq := Nat.minFac_sq_le_self (by omega) hcomposite
  -- the product is below the least prime factor, whose square is at most `N`
  have hmul : factors.prod * factors.prod ≤ N.minFac ^ 2 := by
    rw [sq]
    exact Nat.mul_le_mul (by omega) (by omega)
  omega

/-! ## The two chains

Two is a base for every link. A link is a prime factor of the next one less one, and the last links
are the two moduli. -/

/-- The first link to the modulus of the coordinates. -/
theorem prime_fieldLink : Nat.Prime 255515944373312847190720520512484175977 := by
  refine prime_of_passes 2 [107590001, 7240687, 96557]
    (by decide +kernel) ?_
  simp only [List.forall_mem_cons, List.not_mem_nil, false_imp_iff, implies_true, and_true]
  refine ⟨?_, ?_, ?_⟩ <;> norm_num

/-- The largest prime factor of `fieldPrime - 1`. -/
theorem prime_fieldFactor :
    Nat.Prime 205115282021455665897114700593932402728804164701536103180137503955397371 :=
  prime_of_passes 2 [_] (by decide +kernel) (List.forall_mem_singleton.2 prime_fieldLink)

/-- **The modulus of the coordinates is prime.** -/
theorem prime_fieldPrime : Curve.fieldPrime.Prime :=
  prime_of_passes 2 [_] (by decide +kernel) (List.forall_mem_singleton.2 prime_fieldFactor)

/-- The first link to the modulus of the scalars. -/
theorem prime_orderLink : Nat.Prime 29047611873442575647497758179 := by
  have hlarger : Nat.Prime 297159362677 :=
    prime_of_passes 2 [1627771] (by decide +kernel) (List.forall_mem_singleton.2 (by norm_num))
  have hsmaller : Nat.Prime 545358713 :=
    prime_of_passes 2 [28181] (by decide +kernel) (List.forall_mem_singleton.2 (by norm_num))
  refine prime_of_passes 2 [297159362677, 545358713]
    (by decide +kernel) ?_
  rw [List.forall_mem_cons]
  exact ⟨hlarger, List.forall_mem_singleton.2 hsmaller⟩

/-- The largest prime factor of `order - 1`. -/
theorem prime_orderFactor : Nat.Prime 341948486974166000522343609283189 :=
  prime_of_passes 2 [_] (by decide +kernel) (List.forall_mem_singleton.2 prime_orderLink)

/-- The second largest prime factor of `order - 1`. -/
theorem prime_orderCofactor : Nat.Prime 174723607534414371449 := by
  refine prime_of_passes 2 [44706919, 120233] (by decide +kernel) ?_
  rw [List.forall_mem_cons]
  exact ⟨by norm_num, List.forall_mem_singleton.2 (by norm_num)⟩

/-- **The modulus of the scalars is prime.** -/
theorem prime_order : Curve.order.Prime := by
  refine prime_of_passes 2
    [341948486974166000522343609283189, 174723607534414371449]
    (by decide +kernel) ?_
  rw [List.forall_mem_cons]
  exact ⟨prime_orderFactor, List.forall_mem_singleton.2 prime_orderCofactor⟩

end Attest.Primality
