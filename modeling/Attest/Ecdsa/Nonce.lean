import Attest.Hash.Hmac
import Attest.Curve.Scalar

/-!
# Deterministic nonces

A signature needs a secret number used only once. RFC 6979 takes it from a generator that is
seeded with the secret key and the digest to be signed, so the same key and digest always give
the same nonces in the same order.
-/

namespace Attest.Ecdsa

open Curve

/-- The state of the generator: a key and a running value. -/
structure NonceSource where
  /-- the key of the tags -/
  key : Octets 32
  /-- the tag made last -/
  value : Octets 32

namespace NonceSource

/-- Replaces the running value by its own tag. -/
def turn (source : NonceSource) : NonceSource :=
  { source with value := hmacSha256 source.key.toBytes source.value.toBytes }

/-- Replaces the key by a tag over the running value, a marker and more input, then turns. -/
def absorb (source : NonceSource) (marker : UInt8) (input : Bytes) : NonceSource :=
  turn { source with
    key := hmacSha256 source.key.toBytes (source.value.toBytes ++ marker :: input) }

/-- The generator seeded with a secret key and a digest, turned to its first candidate. Of the
digest the remainder modulo the order is taken. -/
def seeded (secret digest : Octets 32) : NonceSource :=
  let reduced : Octets 32 := Octets.ofNat 32 (Scalar.reduce digest.toNat).val
  let seed := secret.toBytes ++ reduced.toBytes
  let blank : NonceSource := ⟨Vector.replicate 32 0, Vector.replicate 32 1⟩
  ((blank.absorb 0 seed).absorb 1 seed).turn

/-- The candidate nonce that the generator stands at, if it is a scalar other than zero. -/
def candidate? (source : NonceSource) : Option Scalar := Scalar.ofNat? source.value.toNat

/-- Moves on to the next candidate. -/
def next (source : NonceSource) : NonceSource := (source.absorb 0 []).turn

/-- The first result that `use?` accepts a candidate for, among the given number of candidates. -/
def search {α : Type} (use? : Scalar → Option α) : (attempts : Nat) → NonceSource → Option α
  | 0, _ => none
  | attempts + 1, source =>
    match source.candidate?.bind use? with
    | some result => some result
    | none => search use? attempts source.next

end NonceSource

end Attest.Ecdsa
