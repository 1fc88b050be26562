import Mathlib
import Attest.Signature
import Attest.Proofs.Text.Digits

/-!
# Signatures as bytes and in text

A signature holds its scalars as bytes. What is written for a signature reads back as the same
bytes, and the bytes of a signature just made give back its scalars and the oddness of its nonce
point.

The main statements are `Signature.parse_hex` and `Signature.reduced_ofScalars`.
-/

namespace Attest

open Curve

namespace Octets

variable {n : ℕ}

@[simp] theorem ofBytes?_toBytes (octets : Octets n) :
    ofBytes? n octets.toBytes = some octets := ofBytes?_eq_some_iff.2 rfl

theorem toBytes_injective : Function.Injective (toBytes (n := n)) := by
  intro a b h
  exact Vector.toList_inj.1 h

theorem getElem_toBytes (octets : Octets n) {i : ℕ} (h : i < octets.toBytes.length)
    (hi : i < n) : octets.toBytes[i] = octets[i] := by
  simp [toBytes]

/-- A number written in enough bytes reads back. -/
theorem toNat_ofNat {value : ℕ} (h : value < Nat.pow 256 n) : (ofNat n value).toNat = value := by
  rw [toNat, toBytes_ofNat, Bytes.toNat_ofNat, Nat.mod_eq_of_lt h]

end Octets

namespace Signature

@[simp] theorem length_toBytes (signature : Signature) : signature.toBytes.length = 65 := by
  simp [toBytes]

theorem toBytes_injective : Function.Injective toBytes := by
  rintro ⟨r, s, v⟩ ⟨r', s', v'⟩ h
  obtain ⟨hscalars, hv⟩ := List.append_inj h (by simp)
  obtain ⟨hr, hs⟩ := List.append_inj hscalars (by simp)
  obtain rfl := Octets.toBytes_injective hr
  obtain rfl := Octets.toBytes_injective hs
  obtain rfl := List.singleton_inj.1 hv
  rfl

/-- The bytes of a signature are the bytes that it was made of. -/
@[simp] theorem toBytes_ofOctets (octets : Octets 65) :
    (ofOctets octets).toBytes = octets.toBytes := by
  refine List.ext_getElem (by simp) fun i hi hi' => ?_
  rw [Octets.getElem_toBytes _ _ (by simpa using hi')]
  simp only [toBytes, ofOctets, Octets.toBytes, Vector.toList_ofFn, List.getElem_append,
    List.length_append, List.length_ofFn, List.getElem_ofFn, List.getElem_singleton]
  split
  · split
    · rfl
    · congr 1
      omega
  · congr 1
    simp at hi
    omega

/-- Every signature is made of some bytes. -/
theorem exists_ofOctets (signature : Signature) : ∃ octets, ofOctets octets = signature := by
  refine ⟨⟨signature.toBytes.toArray, by simp⟩, toBytes_injective ?_⟩
  rw [toBytes_ofOctets]
  simp [Octets.toBytes, Vector.toList]

/-- **What is written reads back** as the same bytes. -/
theorem parse_hex (signature : Signature) : parse signature.hex = .ok signature := by
  obtain ⟨octets, rfl⟩ := exists_ofOctets signature
  have hlength : Text.byteLength ('0' :: 'x' :: Hex.encode octets.toBytes) = 132 := by
    rw [Text.byteLength_marked, Hex.byteLength_encode, Octets.length_toBytes]
  rw [hex, parse, String.toList_ofList, toBytes_ofOctets]
  simp only [Text.afterMarker?, hlength, ne_eq, not_true_eq_false, ite_false, Hex.decode?_encode,
    Option.bind_some, Octets.ofBytes?_toBytes]

/-! ## The scalars that bytes hold -/

/-- The recovery bytes that can be used. -/
def recoveryBytes : List UInt8 := [0, 1, 27, 28]

/-- Whether the recovery byte stands for the nonce point with the odd `y`. -/
def namesOdd (signature : Signature) : Bool := signature.v ∈ [1, 28]

theorem oddNonce_of_mem {signature : Signature} (h : signature.v ∈ recoveryBytes) :
    signature.oddNonce = .ok signature.namesOdd := by
  simp only [recoveryBytes, List.mem_cons, List.not_mem_nil, or_false] at h
  rcases h with h | h | h | h <;> simp [oddNonce, namesOdd, h]

theorem oddNonce_of_not_mem {signature : Signature} (h : signature.v ∉ recoveryBytes) :
    signature.oddNonce = .error (.unknownRecoveryByte signature.v) := by
  simp only [recoveryBytes, List.mem_cons, List.not_mem_nil, or_false, not_or] at h
  obtain ⟨h₀, h₁, h₂₇, h₂₈⟩ := h
  simp [oddNonce, h₀, h₁, h₂₇, h₂₈]

/-- Whether both scalars lie above zero and below the order. -/
def InRange (signature : Signature) : Prop :=
  (0 < signature.r.toNat ∧ signature.r.toNat < order) ∧
    0 < signature.s.toNat ∧ signature.s.toNat < order

/-- The scalars that the bytes spell, modulo the order. -/
def reduced (signature : Signature) : Ecdsa.Signature where
  r := Scalar.reduce signature.r.toNat
  s := Scalar.reduce signature.s.toNat
  odd := signature.namesOdd

theorem reduced_ne_zero {signature : Signature} (h : signature.InRange) :
    signature.reduced.r ≠ 0 ∧ signature.reduced.s ≠ 0 :=
  ⟨(Scalar.ofNat?_eq_some_iff.1 (Scalar.ofNat?_eq_some_reduce h.1)).2,
    (Scalar.ofNat?_eq_some_iff.1 (Scalar.ofNat?_eq_some_reduce h.2)).2⟩

theorem val_reduced_r {signature : Signature} (h : signature.InRange) :
    signature.reduced.r.val = signature.r.toNat := Nat.mod_eq_of_lt h.1.2

theorem scalars?_of_inRange {signature : Signature} (h : signature.InRange) :
    signature.scalars? signature.namesOdd = some signature.reduced := by
  rw [scalars?, Scalar.ofNat?_eq_some_reduce h.1, Scalar.ofNat?_eq_some_reduce h.2]
  rfl

theorem scalars?_of_not_inRange {signature : Signature} (h : ¬signature.InRange) (odd : Bool) :
    signature.scalars? odd = none := by
  by_cases hr : 0 < signature.r.toNat ∧ signature.r.toNat < order
  · have hs := fun hs => h ⟨hr, hs⟩
    rw [scalars?, Scalar.ofNat?_eq_some_reduce hr, Scalar.ofNat?_eq_none hs]
    rfl
  · rw [scalars?, Scalar.ofNat?_eq_none hr]
    rfl

/-! ## Signatures just made -/

theorem v_ofScalars (signature : Ecdsa.Signature) :
    (ofScalars signature).v = if signature.odd then 28 else 27 := rfl

theorem recoveryByte_ofScalars (signature : Ecdsa.Signature) :
    (ofScalars signature).v ∈ recoveryBytes := by
  rw [v_ofScalars]
  cases signature.odd <;> decide

/-- A scalar written in 32 bytes reads back. -/
theorem toNat_ofNat_scalar (a : Scalar) : (Octets.ofNat 32 a.val).toNat = a.val :=
  Octets.toNat_ofNat (a.isLt.trans_le (by decide))

theorem inRange_ofScalars {signature : Ecdsa.Signature} (hr : signature.r ≠ 0)
    (hs : signature.s ≠ 0) : (ofScalars signature).InRange := by
  have hpos : ∀ a : Scalar, a ≠ 0 → 0 < a.val := fun a ha =>
    Nat.pos_of_ne_zero fun hzero => ha (Fin.ext hzero)
  simp only [InRange, ofScalars, toNat_ofNat_scalar]
  exact ⟨⟨hpos _ hr, signature.r.isLt⟩, hpos _ hs, signature.s.isLt⟩

/-- The bytes of a signature just made give back its scalars. -/
theorem reduced_ofScalars (signature : Ecdsa.Signature) :
    (ofScalars signature).reduced = signature := by
  have hreduce : ∀ a : Scalar, Scalar.reduce a.val = a := fun a =>
    Fin.ext (Nat.mod_eq_of_lt a.isLt)
  have hodd : (ofScalars signature).namesOdd = signature.odd := by
    rw [namesOdd, v_ofScalars]
    cases signature.odd <;> decide
  rw [reduced, hodd]
  simp only [ofScalars, toNat_ofNat_scalar, hreduce]

end Signature

end Attest
