import Attest.Address
import Attest.Entropy
import Attest.PersonalMessage
import Attest.Signature
import Attest.Text.Quoted

/-!
# Private keys

A key holds 32 secret bytes and can be erased once: its bytes are then replaced by a fresh random
secret. An erased key goes on working, but as the key of another address. Any 32 bytes can be
held; deriving and signing fail unless they spell a scalar other than zero.
-/

namespace Attest

/-- What has become of a key. The only change is from live to erased. -/
inductive Lifecycle where
  | live
  | erased
  deriving DecidableEq, Repr

/-- A private key. -/
structure Key where
  secret : Octets 32
  state : Lifecycle
  deriving DecidableEq

namespace Key

/-- Why there is no key, or why a key cannot be used. -/
inductive Error where
  /-- this many bytes, not 32 -/
  | wrongLength (bytes : Nat)
  /-- a character that is no lower-case digit, and the byte where it starts -/
  | notHex (c : Char) (position : Nat)
  /-- a half byte is left over -/
  | oddDigits
  /-- the secret is zero or not below the order -/
  | notScalar
  /-- no random block is left -/
  | noEntropy
  /-- no nonce was of use within the attempts of signing -/
  | noNonce
  deriving DecidableEq, Repr

/-- The cause in words. -/
def Error.message : Error → String
  | wrongLength bytes => "Invalid key length: expected 32 bytes, got " ++ Text.number bytes
  | notHex c position =>
    "Invalid key hex: Invalid character " ++ Text.quotedChar c ++ " at position " ++
      Text.number position
  | oddDigits => "Invalid key hex: Odd number of digits"
  | notScalar => "Key scalar is zero or not below the secp256k1 curve order"
  | noEntropy => "Randomness source failure: entropy exhausted"
  | noNonce => "No usable signing nonce found"

/-! ## Making keys -/

/-- A live key from its secret bytes. -/
def ofBytes (bytes : Bytes) : Except Error Key :=
  match Octets.ofBytes? 32 bytes with
  | some secret => .ok ⟨secret, .live⟩
  | none => .error (.wrongLength bytes.length)

/-- The first character that is no lower-case digit, with the number of bytes in front of it. -/
def firstNonDigit? (chars : List Char) : Option (Char × Nat) :=
  match chars.dropWhile Hex.isLowerDigit with
  | [] => none
  | c :: _ => some (c, Text.byteLength (chars.takeWhile Hex.isLowerDigit))

/-- A live key from 64 lower-case digits, with nothing before or after them. -/
def ofHex (text : String) : Except Error Key :=
  match firstNonDigit? text.toList with
  | some (c, position) => .error (.notHex c position)
  | none =>
    match Hex.decode? text.toList with
    | none => .error .oddDigits
    | some bytes => ofBytes bytes

/-- A new live key, and the random blocks that are left. -/
def generate (entropy : Entropy) : Except Error Key × Entropy :=
  match entropy.draw with
  | (some secret, rest) => (.ok ⟨secret, .live⟩, rest)
  | (none, rest) => (.error .noEntropy, rest)

/-! ## Using keys -/

/-- The secret as a scalar. -/
def scalar (key : Key) : Except Error Curve.Scalar :=
  match Curve.Scalar.ofNat? key.secret.toNat with
  | some scalar => .ok scalar
  | none => .error .notScalar

/-- The public key. -/
def publicKey (key : Key) : Except Error Ecdsa.PublicKey := do
  let secret ← key.scalar
  match Ecdsa.PublicKey.ofSecret? secret with
  | some publicKey => .ok publicKey
  | none => .error .notScalar

/-- The address of the public key. -/
def address (key : Key) : Except Error Address := key.publicKey.map Address.ofPublicKey

/-- The secret as 64 lower-case digits. -/
def hex (key : Key) : String := Hex.text key.secret.toBytes

/-- The signature of a personal message. -/
def sign (key : Key) (message : Bytes) : Except Error Signature := do
  let secret ← key.scalar
  match Ecdsa.sign? secret (PersonalMessage.digest message) with
  | some signature => .ok (Signature.ofScalars signature)
  | none => .error .noNonce

/-- The signature of a personal message, as it is written. -/
def signHex (key : Key) (message : Bytes) : Except Error String :=
  (key.sign message).map Signature.hex

/-! ## Erasing keys -/

/-- Whether the key has been erased. -/
def isErased (key : Key) : Bool := key.state = .erased

/-- Replaces the secret by the first random block that can be one, the first time only. Where no
such block is left the secret becomes zero, and that is an error. Returns the key, the blocks left
and the error, if any. -/
def erase (key : Key) (entropy : Entropy) : Key × Entropy × Option Error :=
  match key.state with
  | .erased => (key, entropy, none)
  | .live =>
    match entropy.draw with
    | (some secret, rest) => (⟨secret, .erased⟩, rest, none)
    | (none, rest) => (⟨Vector.replicate 32 0, .erased⟩, rest, some .noEntropy)

/-- What has become of the key, for a reader who looks into a program; nothing of its secret. -/
def inspect (key : Key) : String :=
  match key.state with
  | .live => "KeyMaterial \x7b state: Live, .. \x7d"
  | .erased => "KeyMaterial \x7b state: Erased, .. \x7d"

end Key

end Attest
