import Attest.Checksum
import Attest.Hex
import Attest.Ecdsa.Signing

/-!
# Addresses

An address is 20 bytes, the end of the digest of a public key. In text it is `0x` and 40
hexadecimal digits, either all in lower case or with the casing of its checksum. Nothing else is
accepted; each refusal has a cause of its own.
-/

namespace Attest

/-- The 20 bytes that name an account. -/
structure Address where
  octets : Octets 20
  deriving DecidableEq

namespace Address

/-- Why a text is no address. -/
inductive Error where
  /-- it does not begin with `0x` -/
  | missingMarker
  /-- this many bytes follow `0x`, not 40 -/
  | wrongLength (bytes : Nat)
  /-- something other than a hexadecimal digit follows `0x` -/
  | notHex
  /-- some letters are in upper case, but not as the checksum asks -/
  | wrongChecksum
  deriving DecidableEq, Repr

/-- The cause in words. -/
def Error.message : Error → String
  | missingMarker => "Address must start with 0x"
  | wrongLength bytes => "Address must have 40 hex digits, got " ++ Text.number bytes
  | notHex => "Address contains non-hex characters"
  | wrongChecksum => "Address has an invalid EIP-55 checksum"

/-- The 40 digits in lower case. -/
def digits (address : Address) : List Char := Hex.encode address.octets.toBytes

/-- The digits as a text. -/
def hex (address : Address) : String := String.ofList address.digits

/-- The digits in lower case with `0x` in front. -/
def lowercased (address : Address) : String := String.ofList ('0' :: 'x' :: address.digits)

/-- The digits with the casing of the checksum and `0x` in front. -/
def checksummed (address : Address) : String :=
  String.ofList ('0' :: 'x' :: Checksum.casing address.digits)

/-- The address in brackets, for a reader who looks into a program. -/
def inspect (address : Address) : String := "Address(" ++ address.checksummed ++ ")"

/-- The address of a public key: the last 20 bytes of the digest of its coordinates. -/
def ofPublicKey (key : Ecdsa.PublicKey) : Address :=
  let digest := keccak256 key.coordinates
  ⟨Vector.ofFn fun i => digest[i.val + 12]⟩

/-! ## Accepted texts -/

/-- Whether a text is an address with all its letters in lower case. -/
def isLowercased (text : String) : Bool :=
  match Text.afterMarker? text.toList with
  | some digits => Text.byteLength digits = 40 && digits.all Hex.isLowerDigit
  | none => false

/-- Whether a text is an address with the casing of its checksum. -/
def isChecksummed (text : String) : Bool :=
  match Text.afterMarker? text.toList with
  | some digits =>
    Text.byteLength digits = 40 && digits.all Hex.isDigit &&
      Checksum.ofText (String.ofList digits) = text
  | none => false

/-- Whether a text is an address in one of the two accepted forms. -/
def isValid (text : String) : Bool := isLowercased text || isChecksummed text

/-- Reads an address in one of the two accepted forms. -/
def parse (text : String) : Except Error Address :=
  match Text.afterMarker? text.toList with
  | none => .error .missingMarker
  | some digits =>
    if Text.byteLength digits ≠ 40 then .error (.wrongLength (Text.byteLength digits))
    else if !digits.all Hex.isDigit then .error .notHex
    else if digits.any Char.isUpper && !isChecksummed text then .error .wrongChecksum
    else
      match (Hex.decode? digits).bind (Octets.ofBytes? 20) with
      | some octets => .ok ⟨octets⟩
      | none => .error .notHex

end Address

end Attest
