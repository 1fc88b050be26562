import Attest.Batch.Lines
import Attest.Record.Reading
import Attest.Text.Blank

/-!
# Reading a batch of records

A batch is a file with one record on each line; blank lines are passed over. It is read as a
whole or not at all: the first line that is neither blank nor a record is the error.
-/

namespace Attest.Batch

/-- Why a file is no batch. -/
inductive ReadError where
  /-- a line is not valid UTF-8 -/
  | notText
  /-- the line of this number, counted from 1, is neither blank nor a record -/
  | badRecord (line : Nat) (cause : Record.ReadError)

/-- The cause in words, with what is wrong with a record. -/
def ReadError.message : ReadError → String
  | notText => "Failed to read records: stream did not contain valid UTF-8"
  | badRecord line cause => "Invalid record on line " ++ Text.number line ++ ": " ++ cause.message

/-- What one line holds: nothing if it is blank, or else a record. -/
def readLine (number : Nat) (line : Bytes) : Except ReadError (Option Record) :=
  match Text.ofUtf8? line with
  | none => .error .notText
  | some text =>
    if Text.trim text.toList = [] then .ok none
    else
      match Record.read text with
      | .ok record => .ok (some record)
      | .error cause => .error (.badRecord number cause)

/-- The records on some lines, the first of which has the given number. The records read so far
are passed along, the last one first. -/
def readLines (number : Nat) (done : List Record) : List Bytes → Except ReadError (List Record)
  | [] => .ok done.reverse
  | line :: rest =>
    match readLine number line with
    | .error error => .error error
    | .ok none => readLines (number + 1) done rest
    | .ok (some record) => readLines (number + 1) (record :: done) rest

/-- The records of a file. -/
def read (file : Bytes) : Except ReadError (List Record) := readLines 1 [] (lines file)

end Attest.Batch
