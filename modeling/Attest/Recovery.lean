import Attest.Address
import Attest.Signature
import Attest.PersonalMessage
import Attest.Text.Blank

/-!
# Recovering signers

A message and a signature determine the public key of the signer, and so its address. Ownership
of an address is proved by a signature that leads back to it.
-/

namespace Attest.Recovery

/-- Why no signer can be recovered. -/
inductive Error where
  /-- the signature cannot be read, or its recovery byte cannot be used -/
  | malformed (cause : Signature.Error)
  /-- a scalar is out of range, `r` names no point, or the public key would be infinity -/
  | noPublicKey
  deriving DecidableEq, Repr

/-- The cause in words. -/
def Error.message : Error → String
  | malformed cause => "Malformed signature: " ++ cause.message
  | noPublicKey => "Public key recovery failed: malformed signature"

/-- The public key under which a signature of a message verifies. The recovery byte is judged
before the scalars. -/
def publicKey (message : Bytes) (signature : Signature) : Except Error Ecdsa.PublicKey := do
  let odd ← signature.oddNonce.mapError .malformed
  match signature.scalars? odd with
  | none => .error .noPublicKey
  | some scalars =>
    let digest := Curve.Scalar.reduce (PersonalMessage.digest message).toNat
    match Ecdsa.recover? digest scalars with
    | none => .error .noPublicKey
    | some key => .ok key

/-- The address that signed a message, from the text of the signature. -/
def signer (message : Bytes) (signature : String) : Except Error Address := do
  let parsed ← (Signature.parse signature).mapError .malformed
  let key ← publicKey message parsed
  pure (Address.ofPublicKey key)

/-- The address that signed a message, if one can be recovered. -/
def signer? (message : Bytes) (signature : String) : Option Address :=
  (signer message signature).toOption

/-- Whether a claimed address, blanks around it and the case of its letters apart, is the address
given. -/
def names (claim : String) (address : Address) : Bool :=
  Text.eqIgnoringCase address.lowercased.toList (Text.trim claim.toList)

/-- Whether a signature of a message was made by the claimed address. -/
def confirms (claim : String) (message : Bytes) (signature : String) : Bool :=
  match signer? message signature with
  | some address => names claim address
  | none => false

end Attest.Recovery
