import Attest.Json.Number
import Attest.Json.Skipping
import Attest.Record
import Attest.Text.Quoted

/-!
# Reading records

A record is read from a JSON object with the members `address`, `msg`, `sig` and, if it is there,
`version`, each a string; other members are passed over. An array of the same strings in this
order is read as well. The text is read from left to right, and the first problem met is the
error: a name that comes twice is refused before its value is looked at, a value of another type
as soon as its type is known, and a missing member when the object ends.
-/

namespace Attest.Record

/-- A member of a record. -/
inductive Field where
  | address
  | message
  | signature
  | version
  deriving DecidableEq, Repr

/-- The name of a member. -/
def Field.name : Field → String
  | address => "address"
  | message => "msg"
  | signature => "sig"
  | version => "version"

/-- The member of a name. -/
def Field.ofName? (name : List Char) : Option Field :=
  [address, message, signature, version].find? fun field => field.name.toList = name

/-- What stands where something else is expected. -/
inductive Found where
  | null
  | boolean (value : Bool)
  | number (value : Json.NumberValue)
  | text (chars : List Char)
  | sequence
  | mapping

/-- What was found, in words. -/
def Found.describe : Found → String
  | null => "null"
  | boolean value => "boolean `" ++ (if value then "true" else "false") ++ "`"
  | number value => value.describe
  | text chars => "string " ++ Text.quoted chars
  | sequence => "sequence"
  | mapping => "map"

/-- What is expected at a place. -/
inductive Expected where
  | record
  | string

/-- What is expected, in words. -/
def Expected.describe : Expected → String
  | record => "struct WalletSignatureRecord"
  | string => "a string"

/-- Why a text is no record. -/
inductive ReadError where
  /-- the text is no JSON -/
  | unreadable (fault : Json.Fault)
  | missing (field : Field)
  | duplicate (field : Field)
  | wrongType (found : Found) (expected : Expected)
  /-- an array of too few strings -/
  | tooShort (length : Nat)

/-- The cause in words; what is wrong with a text that is no JSON is not told. -/
def ReadError.message : ReadError → String
  | unreadable .malformed => "malformed"
  | unreadable .truncated => "truncated"
  | missing field => "missing field `" ++ field.name ++ "`"
  | duplicate field => "duplicate field `" ++ field.name ++ "`"
  | wrongType found expected =>
    "invalid type: " ++ found.describe ++ ", expected " ++ expected.describe
  | tooShort length =>
    "invalid length " ++ Text.number length ++ ", expected " ++ Expected.record.describe ++
      " with 4 elements"

/-- The error for a token that is missing. -/
def unreadable {α : Type} (result : Except Json.Fault α) : Except ReadError α :=
  result.mapError .unreadable

/-- The error for a value of a type that is not expected. A word, a number or a string is read to
its end first; of a container only the opening is. -/
def wrongType (expected : Expected) (chars : List Char) : ReadError :=
  let judge {α : Type} (token : Except Json.Fault α) (found : α → Option Found) : ReadError :=
    match token with
    | .error fault => .unreadable fault
    | .ok token =>
      match found token with
      | some found => .wrongType found expected
      | none => .unreadable .malformed
  match chars with
  | [] => .unreadable .malformed
  | c :: rest =>
    if c = 'n' then judge (Json.word ['u', 'l', 'l'] rest) fun _ => some .null
    else if c = 't' then judge (Json.word ['r', 'u', 'e'] rest) fun _ => some (.boolean true)
    else if c = 'f' then judge (Json.word ['a', 'l', 's', 'e'] rest) fun _ => some (.boolean false)
    else if c = '"' then judge (Json.stringTail [] rest) fun (text, _) => some (.text text)
    else if c = '[' then .wrongType .sequence expected
    else if c = '\x7b' then .wrongType .mapping expected
    else if Json.startsNumeral c then
      judge (Json.numeral .truncated chars) fun (numeral, _) => numeral.value?.map .number
    else .unreadable .malformed

/-- Takes a string, after any space. -/
def stringValue (chars : List Char) : Except ReadError (String × List Char) :=
  match Json.skipSpace chars with
  | [] => .error (.unreadable .truncated)
  | c :: rest =>
    if c = '"' then
      unreadable ((Json.stringTail [] rest).map fun (text, rest) => (String.ofList text, rest))
    else .error (wrongType .string (c :: rest))

/-! ## Objects -/

/-- The members read so far, the last one first. -/
abbrev Draft := List (Field × String)

/-- The member of a draft, which has to be there. -/
def Draft.required (draft : Draft) (field : Field) : Except ReadError String :=
  match draft.lookup field with
  | some value => .ok value
  | none => .error (.missing field)

/-- The record of a draft; a version that is not stated is the current one. -/
def Draft.finish (draft : Draft) : Except ReadError Record := do
  let address ← draft.required .address
  let message ← draft.required .message
  let signature ← draft.required .signature
  pure ⟨address, message, signature, (draft.lookup .version).getD currentVersion⟩

/-- Takes a member after the opening quote of its name, and adds it to the draft if it is one of
the record's. -/
def member (draft : Draft) (chars : List Char) : Except ReadError (Draft × List Char) := do
  let (name, rest) ← unreadable (Json.stringTail [] chars)
  match Field.ofName? name with
  | some field =>
    if (draft.lookup field).isSome then .error (.duplicate field)
    else do
      let rest ← unreadable (Json.punctuation ':' rest)
      let (value, rest) ← stringValue rest
      pure ((field, value) :: draft, rest)
  | none => do
    let rest ← unreadable (Json.punctuation ':' rest)
    let rest ← unreadable (Json.skipValue rest)
    pure (draft, rest)

/-- Takes the members of an object and its closing brace. Every member takes a character, so the
length of the text is steps enough. -/
def objectTail : (steps : Nat) → (first : Bool) → Draft → List Char →
    Except ReadError (Record × List Char)
  | 0, _, _, _ => .error (.unreadable .truncated)
  | steps + 1, first, draft, chars =>
    match Json.skipSpace chars with
    | [] => .error (.unreadable .truncated)
    | c :: rest =>
      if c = '\x7d' then draft.finish.map fun record => (record, rest)
      else if !first && c ≠ ',' then .error (.unreadable .malformed)
      else do
        let rest ← unreadable (Json.punctuation '"' (if first then c :: rest else rest))
        let (draft, rest) ← member draft rest
        objectTail steps false draft rest

/-! ## Arrays -/

/-- Takes the strings of an array, as many as are expected and there; leaves what follows the
last one. The strings read so far are passed along, the last one first. -/
def elements : (expected : Nat) → (done : List String) → List Char →
    Except ReadError (List String × List Char)
  | 0, done, chars => .ok (done.reverse, chars)
  | expected + 1, done, chars =>
    match Json.skipSpace chars with
    | [] => .error (.unreadable .truncated)
    | c :: rest =>
      if c = ']' then .ok (done.reverse, c :: rest)
      else do
        let rest ←
          if done.isEmpty then pure (c :: rest)
          else if c ≠ ',' then .error (.unreadable .malformed)
          else
            match Json.skipSpace rest with
            | [] => .error (.unreadable .truncated)
            | c :: rest =>
              if c = ']' then .error (.unreadable .malformed) else pure (c :: rest)
        let (value, rest) ← stringValue rest
        elements expected (value :: done) rest

/-- Takes the elements of an array and its closing bracket. -/
def arrayTail (chars : List Char) : Except ReadError (Record × List Char) := do
  let (values, rest) ← elements 4 [] chars
  let record ←
    match values with
    | [address, message, signature, version] => pure ⟨address, message, signature, version⟩
    | [address, message, signature] => pure ⟨address, message, signature, currentVersion⟩
    | short => .error (.tooShort short.length)
  let rest ← unreadable (Json.punctuation ']' rest)
  pure (record, rest)

/-! ## Whole texts -/

/-- Reads a record from some characters, with nothing but space around it. -/
def readChars (chars : List Char) : Except ReadError Record := do
  let (record, rest) ←
    match Json.skipSpace chars with
    | [] => .error (.unreadable .truncated)
    | c :: rest =>
      if c = '\x7b' then objectTail (rest.length + 1) true [] rest
      else if c = '[' then arrayTail rest
      else .error (wrongType .record (c :: rest))
  if Json.skipSpace rest = [] then .ok record else .error (.unreadable .malformed)

/-- Reads a record from a text. -/
def read (text : String) : Except ReadError Record := readChars text.toList

end Attest.Record
