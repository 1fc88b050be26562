import Attest.Json.Writing
import Attest.Key
import Attest.Recovery

/-!
# Records of ownership

A record states that an address signed a message. Verifying it recovers the signer and compares;
the verdict says who signed, or why nobody can be named. The version of a record plays no part.
-/

namespace Attest

/-- The claim that an address signed a message. -/
structure Record where
  address : String
  message : String
  signature : String
  version : String
  deriving DecidableEq, Repr

/-- What the verification of a record has shown. -/
inductive Verdict where
  /-- the claimed address signed -/
  | confirmed (address : String)
  /-- another address signed -/
  | mismatch (claimed recovered : String)
  /-- no signer can be named -/
  | unrecoverable (reason : String)
  deriving DecidableEq, Repr

namespace Verdict

/-- The kinds of verdict that are counted. -/
inductive Kind where
  | confirmed
  | mismatch
  | unrecoverable
  deriving DecidableEq, Repr

/-- The kind of a verdict. -/
def kind : Verdict → Kind
  | confirmed .. => .confirmed
  | mismatch .. => .mismatch
  | unrecoverable .. => .unrecoverable

/-- Whether the claimed address signed. -/
def isConfirmed (verdict : Verdict) : Bool := verdict.kind = .confirmed

/-- The members that a verdict adds to an object: its kind, then what it tells. -/
def members : Verdict → Json.Members
  | confirmed address => [("verdict", .text "confirmed"), ("address", .text address)]
  | mismatch claimed recovered =>
    [("verdict", .text "mismatch"), ("claimed", .text claimed), ("recovered", .text recovered)]
  | unrecoverable reason => [("verdict", .text "unrecoverable"), ("reason", .text reason)]

end Verdict

namespace Record

/-- The version of the records that are signed here, and of those that state none. -/
def currentVersion : String := "2"

/-- The record of a message signed with a key, under its address in lower case. -/
def sign (key : Key) (message : String) : Except Key.Error Record := do
  let signature ← key.signHex (Text.bytes message)
  let address ← key.address
  pure ⟨address.lowercased, message, signature, currentVersion⟩

/-- What a record proves. -/
def verify (record : Record) : Verdict :=
  match Recovery.signer (Text.bytes record.message) record.signature with
  | .error error => .unrecoverable error.message
  | .ok address =>
    if Recovery.names record.address address then .confirmed address.lowercased
    else .mismatch record.address address.lowercased

/-- The members of a record as an object. -/
def members (record : Record) : Json.Members :=
  [("address", .text record.address), ("msg", .text record.message),
    ("sig", .text record.signature), ("version", .text record.version)]

end Record

end Attest
