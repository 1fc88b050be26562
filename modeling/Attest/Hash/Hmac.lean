import Attest.Hash.Sha256

/-!
# Keyed digests

HMAC over SHA-256: the key is padded to a whole block and mixed with two fixed bytes, once around
the message and once around the inner digest.
-/

namespace Attest.Hmac

/-- The key as one block: a key longer than a block is digested first, then zeros fill it up. -/
def keyBlock (key : Bytes) : Bytes :=
  let short := if key.length ≤ 64 then key else (sha256 key).toBytes
  short ++ List.replicate (64 - short.length) 0

/-- The key block with every byte mixed with one fixed byte. -/
def mask (key : Bytes) (byte : UInt8) : Bytes := (keyBlock key).map (· ^^^ byte)

end Attest.Hmac

namespace Attest

/-- The HMAC-SHA-256 tag of a message under a key. -/
def hmacSha256 (key message : Bytes) : Octets 32 :=
  let inner := sha256 (Hmac.mask key 0x36 ++ message)
  sha256 (Hmac.mask key 0x5c ++ inner.toBytes)

end Attest
