import Mathlib
import Attest.Proofs.Recovery
import Attest.Proofs.Signature.Reading

/-!
# Signatures that name the same signer

A signature can be spelled in several ways: its digits in either case, and its recovery byte with or
without the offset of 27. Besides, every signature has a twin, with the opposite `s` and the opposite
nonce point. None of this makes a difference to whom it names, nor to the error where it names
nobody. For the twin the reason is that the opposite `s` turns the point that verification computes
into its opposite, which is the one that the twin names.

The main statements are `Ecdsa.recover?_twin` and `Recovery.signer_of_respelled`.
-/

namespace Attest

open Curve
open scoped Attest.Residue

/-! ## Twins among scalars -/

namespace Ecdsa

theorem Signature.twin_twin (signature : Signature) : signature.twin.twin = signature := by
  obtain ⟨r, s, odd⟩ := signature
  simp only [twin, neg_neg, Bool.not_not]

/-- A signature and its twin verify under the same keys. -/
theorem verifies_twin_iff {digest : Scalar} {signature : Signature} {Q : CurvePoint} :
    Verifies digest signature.twin Q ↔ Verifies digest signature Q := by
  refine ⟨fun h => ?_, Verifies.twin⟩
  have htwin := h.twin
  rwa [signature.twin_twin] at htwin

/-- **A signature and its twin lead to the same key**, or both to none. -/
theorem recover?_twin {digest : Scalar} {signature : Signature} (hr : signature.r ≠ 0)
    (hs : signature.s ≠ 0) : recover? digest signature.twin = recover? digest signature := by
  have hr' : signature.twin.r ≠ 0 := hr
  have hs' : signature.twin.s ≠ 0 := neg_ne_zero.2 hs
  ext key
  rw [recover?_eq_some_iff hr' hs', recover?_eq_some_iff hr hs]
  simp only [verifies_twin_iff]

end Ecdsa

/-! ## Twins among bytes -/

namespace Signature

variable {signature other : Signature}

theorem reduce_sub {value : ℕ} (hlt : value < order) :
    Scalar.reduce (order - value) = -Scalar.reduce value := by
  refine Fin.ext ?_
  rw [Fin.val_neg', Scalar.val_reduce, Scalar.val_reduce, Nat.mod_eq_of_lt hlt]

/-- Whether the scalars of two signatures are the same up to the sign of `s`, which is in range. -/
structure Opposite (signature other : Signature) : Prop where
  r : other.r = signature.r
  pos : 0 < signature.s.toNat
  lt : signature.s.toNat < order
  s : other.s.toNat = order - signature.s.toNat

theorem Opposite.inRange_iff (h : signature.Opposite other) : other.InRange ↔ signature.InRange := by
  obtain ⟨hr, hpos, hlt, hs⟩ := h
  rw [InRange, InRange, hr, hs]
  refine and_congr_right fun _ => ?_
  omega

/-- The opposite `s` and the other nonce point make the twin. -/
theorem Opposite.reduced_eq (h : signature.Opposite other)
    (hodd : other.namesOdd = !signature.namesOdd) : other.reduced = signature.reduced.twin := by
  rw [reduced, reduced, Ecdsa.Signature.twin, h.r, h.s, hodd, reduce_sub h.lt]

/-- A recovery byte and the one with the offset stand for the same nonce point. -/
theorem oddNonce_eq_of_same (signature other : Signature)
    (h : (signature.v, other.v) ∈ [(0, 27), (27, 0), (1, 28), (28, 1)]) :
    other.oddNonce = signature.oddNonce := by
  simp only [List.mem_cons, List.not_mem_nil, or_false, Prod.mk.injEq] at h
  rcases h with ⟨hv, hv'⟩ | ⟨hv, hv'⟩ | ⟨hv, hv'⟩ | ⟨hv, hv'⟩
  all_goals
    rw [oddNonce, oddNonce, hv, hv']
    rfl

/-- Recovery bytes of the two nonce points can both be used, and tell different oddness. -/
theorem namesOdd_eq_not_of_other (signature other : Signature)
    (h : signature.v ∈ [0, 27] ∧ other.v ∈ [1, 28] ∨ signature.v ∈ [1, 28] ∧ other.v ∈ [0, 27]) :
    signature.v ∈ recoveryBytes ∧ other.v ∈ recoveryBytes ∧
      other.namesOdd = !signature.namesOdd := by
  have heven : ∀ byte : UInt8, byte ∈ [0, 27] → byte ∈ recoveryBytes ∧ byte ∉ [1, 28] := by
    simp [recoveryBytes]
  have hodd : ∀ byte : UInt8, byte ∈ [1, 28] → byte ∈ recoveryBytes := by
    simp [recoveryBytes]
  rw [namesOdd, namesOdd]
  rcases h with ⟨h, h'⟩ | ⟨h, h'⟩
  · simp [heven _ h, hodd _ h', h']
  · simp [heven _ h', hodd _ h, h]

end Signature

namespace Recovery

variable {message : Bytes} {signature other : Signature}

/-- Of the recovery byte it matters only which nonce point it stands for. -/
theorem publicKey_eq_of_oddNonce_eq (hr : other.r = signature.r) (hs : other.s = signature.s)
    (hodd : other.oddNonce = signature.oddNonce) :
    publicKey message other = publicKey message signature := by
  have hscalars : other.scalars? = signature.scalars? := by
    funext odd
    rw [Signature.scalars?, Signature.scalars?, hr, hs]
  rw [publicKey, publicKey, hodd, hscalars]

/-- **The twin of a signature names the same key**, or nobody for the same reason, whatever `r`
is. -/
theorem publicKey_eq_of_opposite (h : signature.Opposite other)
    (hbyte : signature.v ∈ Signature.recoveryBytes) (hbyte' : other.v ∈ Signature.recoveryBytes)
    (hodd : other.namesOdd = !signature.namesOdd) :
    publicKey message other = publicKey message signature := by
  have hrecovered : (other.scalars? other.namesOdd).bind (Ecdsa.recover? (digestScalar message)) =
      (signature.scalars? signature.namesOdd).bind (Ecdsa.recover? (digestScalar message)) := by
    by_cases hrange : signature.InRange
    · obtain ⟨hr, hs⟩ := Signature.reduced_ne_zero hrange
      rw [Signature.scalars?_of_inRange hrange,
        Signature.scalars?_of_inRange (h.inRange_iff.2 hrange), h.reduced_eq hodd]
      exact Ecdsa.recover?_twin hr hs
    · -- an `r` out of range is refused in both, before a point is looked for
      rw [Signature.scalars?_of_not_inRange hrange,
        Signature.scalars?_of_not_inRange (mt h.inRange_iff.1 hrange)]
  rw [publicKey_of_mem hbyte, publicKey_of_mem hbyte', hrecovered]

/-! ## Spellings -/

/-- The digits of a signature may be written in any casing. -/
theorem signer_eq_of_lower_eq {text text' : String} {digits digits' : List Char}
    (htext : text.toList = '0' :: 'x' :: digits) (htext' : text'.toList = '0' :: 'x' :: digits')
    (hlower : Text.lower digits' = Text.lower digits) (h : Signature.parse text = .ok signature) :
    signer message text' = signer message text := by
  obtain ⟨given, hspells⟩ := Signature.parse_eq_ok_iff.1 h
  obtain ⟨hgiven, hencode⟩ := Signature.spells_iff.1 hspells
  obtain rfl : given = digits := by simpa [htext] using hgiven.symm
  have h' := Signature.parse_of_lower_eq htext' (hlower.trans hencode)
  rw [signer_of_parse h, signer_of_parse h']

/-- **Whom a signature names does not depend on how it is spelled, nor on which of two twins it
is.** For every message and every text of a signature, the signer, or the reason why there is none,
stays the same where the digits are written in another casing; where the recovery byte is exchanged
for the one that stands for the same nonce point; and where `s`, if it is above zero and below the
order, is taken from the order and the recovery byte exchanged for one of the other nonce point. -/
theorem signer_of_respelled (message : Bytes) (text : String) (signature : Signature)
    (h : Signature.parse text = .ok signature) :
    (∀ digits digits' : List Char, text.toList = '0' :: 'x' :: digits →
      Text.lower digits' = Text.lower digits →
      signer message (String.ofList ('0' :: 'x' :: digits')) = signer message text) ∧
    (∀ (text' : String) (byte : UInt8), Signature.parse text' = .ok { signature with v := byte } →
      (signature.v, byte) ∈ [(0, 27), (27, 0), (1, 28), (28, 1)] →
      signer message text' = signer message text) ∧
    ∀ (text' : String) (s : Octets 32) (byte : UInt8),
      Signature.parse text' = .ok { signature with s := s, v := byte } →
      1 ≤ signature.s.toNat → signature.s.toNat < order →
      s.toNat = order - signature.s.toNat →
      signature.v ∈ [0, 27] ∧ byte ∈ [1, 28] ∨ signature.v ∈ [1, 28] ∧ byte ∈ [0, 27] →
      signer message text' = signer message text := by
  refine ⟨?_, ?_, ?_⟩
  · intro digits digits' htext hlower
    exact signer_eq_of_lower_eq htext String.toList_ofList hlower h
  · intro text' byte h' hbytes
    have hodd := Signature.oddNonce_eq_of_same signature { signature with v := byte } hbytes
    have hkey : publicKey message { signature with v := byte } = publicKey message signature :=
      publicKey_eq_of_oddNonce_eq rfl rfl hodd
    rw [signer_of_parse h, signer_of_parse h', hkey]
  · intro text' s byte h' hpos hlt hs hbytes
    have hopposite : signature.Opposite { signature with s := s, v := byte } := ⟨rfl, hpos, hlt, hs⟩
    obtain ⟨hbyte, hbyte', hodd⟩ := Signature.namesOdd_eq_not_of_other signature
      { signature with s := s, v := byte } hbytes
    rw [signer_of_parse h, signer_of_parse h',
      publicKey_eq_of_opposite hopposite hbyte hbyte' hodd]

/-- A signature with a small `r` that is the `x` of a point. -/
def small : Signature := ⟨Octets.ofNat 32 1, Octets.ofNat 32 2, 27⟩

/-- It names somebody, and so do the same digits in upper case, with the raw recovery byte, and its
twin. -/
theorem signer_of_respelled_small :
    Signature.parse small.hex = .ok small ∧
      (signer (Text.bytes "Some data") small.hex).isOk ∧
      signer (Text.bytes "Some data")
          (String.ofList ('0' :: 'x' :: (Hex.encode small.toBytes).map Char.toUpper)) =
        signer (Text.bytes "Some data") small.hex ∧
      signer (Text.bytes "Some data") { small with v := 0 }.hex =
        signer (Text.bytes "Some data") small.hex ∧
      signer (Text.bytes "Some data")
          { small with s := Octets.ofNat 32 (order - 2), v := 28 }.hex =
        signer (Text.bytes "Some data") small.hex := by
  have hparse := Signature.parse_hex small
  obtain ⟨hcase, hoffset, htwin⟩ :=
    signer_of_respelled (Text.bytes "Some data") small.hex small hparse
  refine ⟨hparse, by decide +kernel, ?_, ?_, ?_⟩
  · exact hcase (Hex.encode small.toBytes) _ String.toList_ofList (by decide +kernel)
  · exact hoffset _ 0 (Signature.parse_hex _) (by decide)
  · exact htwin _ _ 28 (Signature.parse_hex _) (by decide +kernel) (by decide +kernel)
      (by decide +kernel) (by decide)

end Recovery

end Attest
