import Attest.Text
import Attest.Hash.Keccak

/-!
# Checksum casing

The casing of the letters in an address carries a checksum (EIP-55): the letter at a position is
written in upper case if the digest of the lower-case digits has a half byte of eight or more
there. The rule is applied to any characters at all: a position beyond the digest starts over at
its first byte, and what is no ASCII letter stays as it is.
-/

namespace Attest.Checksum

/-- The half byte of a digest at a position, the high half of each byte first. -/
def halfByte (digest : Octets 32) (position : Nat) : UInt8 :=
  let byte := digest[position / 2 % 32]
  if position % 2 = 0 then byte >>> 4 else byte &&& 0x0f

/-- The character at a position with the casing that the digest asks for. -/
def recase (digest : Octets 32) (position : Nat) (c : Char) : Char :=
  if c.isAlpha && 8 ≤ halfByte digest position then c.toUpper else c

/-- Some lower-case characters with the casing that their own digest asks for. -/
def casing (chars : List Char) : List Char :=
  chars.mapIdx (recase (keccak256 (Text.utf8 chars)))

/-- The checksummed form of any text: without regard to its casing, and with one `0x` in front. -/
def ofText (text : String) : String :=
  let chars := text.toList
  let digits := (Text.afterMarker? chars).getD chars
  String.ofList ('0' :: 'x' :: casing (Text.lower digits))

end Attest.Checksum
