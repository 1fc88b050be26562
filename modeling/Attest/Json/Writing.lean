import Attest.Text

/-!
# Writing JSON objects

Objects are written with their members in the order given, either on one line without any space
(`compact`) or one member to a line (`pretty`). Inside a string only the quote, the backslash and
the control characters are escaped; all other characters stand for themselves.
-/

namespace Attest.Json

/-- The value of a member. -/
inductive Value where
  | text (value : String)
  | number (value : Nat)
  deriving DecidableEq, Repr

/-- The members of an object, in order. -/
abbrev Members := List (String × Value)

/-- A character as it stands inside a string. -/
def escape (c : Char) : List Char :=
  if c = '"' then ['\\', '"']
  else if c = '\\' then ['\\', '\\']
  else if c = '\x08' then ['\\', 'b']
  else if c = '\x0c' then ['\\', 'f']
  else if c = '\n' then ['\\', 'n']
  else if c = '\r' then ['\\', 'r']
  else if c = '\t' then ['\\', 't']
  else if c < ' ' then
    ['\\', 'u', '0', '0', Nat.digitChar (c.toNat / 16), Nat.digitChar (c.toNat % 16)]
  else [c]

/-- A string between its quotes. -/
def string (value : String) : List Char := '"' :: value.toList.flatMap escape ++ ['"']

/-- A value as it is written. -/
def Value.written : Value → List Char
  | text value => string value
  | number value => Text.decimal value

/-- The written members, each with the same separator after its colon. -/
def written (afterColon : List Char) (members : Members) : List (List Char) :=
  members.map fun (name, value) => string name ++ ':' :: afterColon ++ value.written

/-- An object on one line, without any space. -/
def compact (members : Members) : String :=
  String.ofList ('\x7b' :: List.intercalate [','] (written [] members) ++ ['\x7d'])

/-- An object with each member on a line of its own, indented by two spaces. -/
def pretty (members : Members) : String :=
  String.ofList
    ("\x7b\n  ".toList ++ List.intercalate ",\n  ".toList (written [' '] members) ++
      "\n\x7d".toList)

end Attest.Json
