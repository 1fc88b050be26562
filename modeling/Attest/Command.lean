import Attest.Address

/-!
# Commands

What a user can ask for, and which requests are refused before any work is done.
-/

namespace Attest

/-- A request. Counts have 64 bits. -/
inductive Command where
  /-- make this many new keys -/
  | generate (count : UInt64)
  /-- show the address of a key -/
  | address (key : String)
  /-- show an address with its checksum -/
  | checksum (address : String)
  /-- sign a message, and show either the signature or a whole record -/
  | sign (key message : String) (record : Bool)
  /-- show who signed a message -/
  | recover (message signature : String)
  /-- check that an address signed a message -/
  | verify (address message signature : String)
  /-- verify the records in a file -/
  | verifyBatch (input : String) (workers : Option UInt64)
  deriving DecidableEq, Repr

namespace Command

/-- Why a request is refused. -/
inductive Error where
  | badKey
  | badAddress (text : String)
  /-- no key at all is asked for -/
  | noCount
  /-- no worker at all is asked for -/
  | noWorkers
  deriving DecidableEq, Repr

/-- The cause in words. -/
def Error.message : Error → String
  | badKey => "Invalid key: Key must be 64 lowercase hex characters without 0x prefix"
  | badAddress text =>
    "Invalid address (expected lowercase or EIP-55 checksummed 0x + 40 hex): " ++ text
  | noCount => "Invalid argument: Count must be at least 1"
  | noWorkers => "Invalid argument: Workers must be at least 1"

/-- Whether a text is written as a key: 64 lower-case digits. -/
def isKeyText (text : String) : Bool :=
  Text.byteLength text.toList = 64 && text.toList.all Hex.isLowerDigit

/-- Refuses a text that is not written as a key. -/
def checkKey (text : String) : Except Error Unit :=
  if isKeyText text then .ok () else .error .badKey

/-- Refuses a text that is no valid address. -/
def checkAddress (text : String) : Except Error Unit :=
  if Address.isValid text then .ok () else .error (.badAddress text)

/-- Refuses a request that cannot be met. -/
def validate : Command → Except Error Unit
  | .generate count => if count = 0 then .error .noCount else .ok ()
  | .address key | .sign key _ _ => checkKey key
  | .checksum text | .verify text _ _ => checkAddress text
  | .recover _ _ => .ok ()
  | .verifyBatch _ workers => if workers = some 0 then .error .noWorkers else .ok ()

/-- The number of workers that is asked for; none leaves it to the machine. -/
def workers? : Command → Option UInt64
  | .verifyBatch _ workers => workers
  | _ => none

end Command

end Attest
