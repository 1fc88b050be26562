import Attest.Ecdsa.Nonce
import Attest.Curve.Jacobian

/-!
# Signing and recovery over the curve

A signature of a digest is a pair of scalars together with the oddness of the nonce point, which
is what it takes to find the public key again. Signing keeps the second scalar in the lower half
of its range: of a signature and its twin with `-s` only one is ever written. Recovery accepts
both.
-/

namespace Attest.Ecdsa

open Curve

/-- A public key: a point of the curve other than infinity. -/
structure PublicKey where
  x : Coordinate
  y : Coordinate
  deriving DecidableEq, Repr

namespace PublicKey

/-- The public key as a point. -/
def point (key : PublicKey) : Point := .affine key.x key.y

/-- A point as a public key; infinity is none. -/
def ofPoint? : Point → Option PublicKey
  | .infinity => none
  | .affine x y => some ⟨x, y⟩

/-- The public key of a secret scalar. -/
def ofSecret? (secret : Scalar) : Option PublicKey := ofPoint? (generator.times secret)

/-- Both coordinates, 32 bytes each. -/
def coordinates (key : PublicKey) : Bytes := Bytes.ofNat 32 key.x ++ Bytes.ofNat 32 key.y

/-- The short form: a byte for the oddness of `y`, then `x`. -/
def compressed (key : PublicKey) : Bytes :=
  (if key.y.isOdd then 0x03 else 0x02) :: Bytes.ofNat 32 key.x

/-- The long form: the byte `0x04`, then both coordinates. -/
def uncompressed (key : PublicKey) : Bytes := 0x04 :: key.coordinates

/-- Reads either form; refuses coordinates that are out of range or make no point of the curve. -/
def ofBytes? : Bytes → Option PublicKey
  | [] => none
  | form :: rest =>
    if (form = 0x02 ∨ form = 0x03) ∧ rest.length = 32 then do
      let x ← Coordinate.ofNat? (Bytes.toNat rest)
      let point ← Point.lift? x (form = 0x03)
      ofPoint? point
    else if form = 0x04 ∧ rest.length = 64 then do
      let x ← Coordinate.ofNat? (Bytes.toNat (rest.take 32))
      let y ← Coordinate.ofNat? (Bytes.toNat (rest.drop 32))
      if OnCurve x y then some ⟨x, y⟩ else none
    else none

end PublicKey

/-- A signature from which the signer can be recovered. -/
structure Signature where
  /-- the `x` of the nonce point -/
  r : Scalar
  /-- the scalar that ties nonce, digest and secret together -/
  s : Scalar
  /-- whether the `y` of the nonce point is odd -/
  odd : Bool
  deriving DecidableEq, Repr

/-- The twin that proves the same: `s` and the nonce point change sign. -/
def Signature.twin (signature : Signature) : Signature :=
  { signature with s := -signature.s, odd := !signature.odd }

/-- The signature of a digest under a secret with one nonce, `s` in the lower half. A nonce is of
no use if the `x` of its point is not below the order, so that `r` would not name it, or if `r`
or `s` would be zero. -/
def signWith? (secret digest nonce : Scalar) : Option Signature :=
  match generator.times nonce with
  | .infinity => none
  | .affine x y => do
    let r ← Scalar.ofNat? x.val
    let s : Scalar := Residue.inverse nonce * (digest + r * secret)
    if s = 0 then none
    else
      let signature : Signature := ⟨r, s, y.isOdd⟩
      some (if s.isHigh then signature.twin else signature)

/-- How many nonces signing tries. All but about one in `2 ^ 127` candidates are of use. -/
def attempts : Nat := UInt32.size

/-- The signature of a digest: the first nonce of use decides it. -/
def sign? (secret : Scalar) (digest : Octets 32) : Option Signature :=
  let source := NonceSource.seeded (Octets.ofNat 32 secret) digest
  source.search (signWith? secret (Scalar.reduce digest.toNat)) attempts

/-- The public key under which a signature of a digest verifies: the sum of `s / r` nonce points
and `-digest / r` generators. None if `r` is the `x` of no point or the sum is infinity. -/
def recover? (digest : Scalar) (signature : Signature) : Option PublicKey := do
  let x ← Coordinate.ofNat? signature.r
  let nonce ← Point.lift? x signature.odd
  let inverse := Residue.inverse signature.r
  PublicKey.ofPoint?
    ((nonce.times (inverse * signature.s).val).add (generator.times (-(inverse * digest)).val))

end Attest.Ecdsa
