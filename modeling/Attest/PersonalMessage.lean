import Attest.Text
import Attest.Hash.Keccak

/-!
# Personal messages

A message is framed before it is signed, so that no signed message can double as a transaction:
a fixed opening, the length of the message in decimal, and the message itself. What is signed is
the digest of that frame.
-/

namespace Attest.PersonalMessage

/-- How every framed message begins. -/
def opening : String := "\x19Ethereum Signed Message:\n"

/-- The opening, the number of bytes of the message in decimal, and the message. -/
def frame (message : Bytes) : Bytes :=
  Text.bytes opening ++ Text.utf8 (Text.decimal message.length) ++ message

/-- What is signed for a message. -/
def digest (message : Bytes) : Octets 32 := keccak256 (frame message)

end Attest.PersonalMessage
