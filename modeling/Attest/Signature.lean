import Attest.Text
import Attest.Hex
import Attest.Ecdsa.Signing

/-!
# Signatures in text

A signature is exchanged as 65 bytes, the two scalars and a recovery byte, written as `0x` and
130 hexadecimal digits of either case. Signing writes 27 or 28 as the recovery byte; some wallets
write 0 or 1 instead.
-/

namespace Attest

/-- The 65 bytes of a signature. Any bytes can be held; what they prove is decided on recovery. -/
structure Signature where
  /-- the first scalar, big-endian -/
  r : Octets 32
  /-- the second scalar, big-endian -/
  s : Octets 32
  /-- the recovery byte -/
  v : UInt8
  deriving DecidableEq

namespace Signature

/-- Why a text is no signature, or a signature cannot be used. -/
inductive Error where
  /-- the text does not begin with `0x` -/
  | missingMarker
  /-- the text has this many bytes, not 132 -/
  | wrongLength (bytes : Nat)
  /-- something other than a hexadecimal digit follows `0x` -/
  | notHex
  /-- the recovery byte is none of 0, 1, 27 and 28 -/
  | unknownRecoveryByte (byte : UInt8)
  deriving DecidableEq, Repr

/-- The cause in words. -/
def Error.message : Error → String
  | missingMarker => "Signature must start with 0x"
  | wrongLength bytes => "Signature must be 132 characters long, got " ++ Text.number bytes
  | notHex => "Signature contains non-hex characters"
  | unknownRecoveryByte byte => "Unsupported recovery byte: " ++ Text.number byte.toNat

/-- The 65 bytes in order. -/
def toBytes (signature : Signature) : Bytes :=
  signature.r.toBytes ++ signature.s.toBytes ++ [signature.v]

/-- The signature that 65 bytes make. -/
def ofOctets (octets : Octets 65) : Signature where
  r := Vector.ofFn fun i => octets[i.val]
  s := Vector.ofFn fun i => octets[i.val + 32]
  v := octets[64]

/-- The written form: `0x` and 130 lower-case digits. -/
def hex (signature : Signature) : String :=
  String.ofList ('0' :: 'x' :: Hex.encode signature.toBytes)

/-- The signature in brackets, for a reader who looks into a program. -/
def inspect (signature : Signature) : String := "Signature(" ++ signature.hex ++ ")"

/-- Reads the written form, in either case. -/
def parse (text : String) : Except Error Signature :=
  match Text.afterMarker? text.toList with
  | none => .error .missingMarker
  | some digits =>
    if Text.byteLength text.toList ≠ 132 then
      .error (.wrongLength (Text.byteLength text.toList))
    else
      match (Hex.decode? digits).bind (Octets.ofBytes? 65) with
      | some octets => .ok (ofOctets octets)
      | none => .error .notHex

/-- Whether the nonce point is the one with the odd `y`, as the recovery byte tells. -/
def oddNonce (signature : Signature) : Except Error Bool :=
  if signature.v = 0 ∨ signature.v = 27 then .ok false
  else if signature.v = 1 ∨ signature.v = 28 then .ok true
  else .error (.unknownRecoveryByte signature.v)

/-- The recovery id, 0 or 1. -/
def recoveryId (signature : Signature) : Except Error Nat :=
  signature.oddNonce.map Bool.toNat

/-- The bytes of a signature just made, with 27 or 28 as the recovery byte. -/
def ofScalars (signature : Ecdsa.Signature) : Signature where
  r := Octets.ofNat 32 signature.r
  s := Octets.ofNat 32 signature.s
  v := if signature.odd then 28 else 27

/-- The scalars of a signature, if both are above zero and below the order. -/
def scalars? (signature : Signature) (odd : Bool) : Option Ecdsa.Signature := do
  let r ← Curve.Scalar.ofNat? signature.r.toNat
  let s ← Curve.Scalar.ofNat? signature.s.toNat
  pure ⟨r, s, odd⟩

end Signature

end Attest
