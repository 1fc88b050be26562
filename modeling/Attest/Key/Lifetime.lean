import Attest.Record

/-!
# The lifetime of a key

A key lives through a sequence of operations and ends by being erased, if it has not been erased
before. Only erasing changes the key and takes random blocks; every other operation gives an
answer and leaves all as it is.
-/

namespace Attest.Key

/-- What can be done with a key. -/
inductive Operation where
  | state
  | bytes
  | hex
  | publicKey
  | address
  | checksummed
  | sign (message : Bytes)
  | signHex (message : Bytes)
  | record (message : String)
  | erase
  deriving DecidableEq, Repr

/-- What an operation answers. -/
inductive Answer where
  | state (state : Lifecycle)
  | bytes (secret : Octets 32)
  | text (text : Except Error String)
  | publicKey (key : Except Error Ecdsa.PublicKey)
  | address (address : Except Error Address)
  | signature (signature : Except Error Signature)
  | record (record : Except Error Record)
  /-- erasing answers an error or nothing -/
  | erased (error : Option Error)

/-- A key with the random blocks that it can still be given. -/
structure Lifetime where
  key : Key
  entropy : Entropy
  deriving DecidableEq

namespace Lifetime

/-- The answer to an operation that only reads the key. -/
def answer (key : Key) : Operation → Option Answer
  | .state => some (.state key.state)
  | .bytes => some (.bytes key.secret)
  | .hex => some (.text (.ok key.hex))
  | .publicKey => some (.publicKey key.publicKey)
  | .address => some (.address key.address)
  | .checksummed => some (.text (key.address.map Address.checksummed))
  | .sign message => some (.signature (key.sign message))
  | .signHex message => some (.text (key.signHex message))
  | .record message => some (.record (Record.sign key message))
  | .erase => none

/-- Erases the key: the error, if any, and what comes after. -/
def erase (life : Lifetime) : Option Error × Lifetime :=
  let (key, entropy, error) := life.key.erase life.entropy
  (error, ⟨key, entropy⟩)

/-- Performs one operation. -/
def perform (life : Lifetime) (operation : Operation) : Answer × Lifetime :=
  match answer life.key operation with
  | some given => (given, life)
  | none => (.erased life.erase.1, life.erase.2)

/-- Performs some operations in order. -/
def run (life : Lifetime) : List Operation → List Answer × Lifetime
  | [] => ([], life)
  | operation :: rest =>
    let (first, life) := life.perform operation
    let (others, life) := life.run rest
    (first :: others, life)

/-- Ends the lifetime: the key is erased if it still is live, whatever comes of it. -/
def finish (life : Lifetime) : Lifetime := life.erase.2

end Lifetime

end Attest.Key
