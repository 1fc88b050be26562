import Attest.Batch.Input
import Attest.Batch.Report
import Attest.Command
import Attest.Files
import Attest.Key.Lifetime
import Attest.Record

/-!
# Running a command

A run turns a command, and what the machine supplies to it, into an exit code and two texts: what
is shown to the user and what is told about the run. The exit code is 0 for success, 2 for an
ownership that is not proved, and 1 for everything that keeps a command from being carried out.
-/

namespace Attest.Program

/-- What the machine supplies to a run. -/
structure Supplies where
  /-- what is in the file that is named as input, or why that cannot be read -/
  file : Except Files.Error Bytes
  /-- random blocks for new keys -/
  entropy : Entropy
  /-- the number of workers where none is asked for -/
  processors : Nat

/-- What a run leaves behind. -/
structure Transcript where
  exitCode : UInt32
  output : String
  diagnostics : String
  deriving DecidableEq, Repr

/-- Lines of text, each with its line end. -/
def unlines (lines : List String) : String := String.join (lines.map (· ++ "\n"))

namespace Transcript

/-- A command that was carried out and showed some lines. -/
def success (output : List String) : Transcript := ⟨0, unlines output, ""⟩

/-- A command that could not be carried out. -/
def failure (message : String) : Transcript := ⟨1, "", unlines ["ERROR " ++ message]⟩

/-- A command that was refused before any work was done. -/
def refusal (error : Command.Error) : Transcript :=
  ⟨1, "", unlines ["Configuration error: " ++ error.message]⟩

/-- A command that shows some lines, or cannot be carried out. -/
def ofResult {ε : Type} (message : ε → String) : Except ε (List String) → Transcript
  | .ok output => success output
  | .error error => failure (message error)

end Transcript

/-- An address in lower case and with its checksum. -/
def addressLines (address : Address) : List String :=
  ["Address:     " ++ address.lowercased, "Checksummed: " ++ address.checksummed]

/-- A new key with its number and address. -/
def keyLines (number : Nat) (key : Key) : Except Key.Error (List String) := do
  let address ← key.address
  pure ["=== Key #" ++ Text.number number ++ " ===", "Address:     " ++ address.checksummed,
    "Private Key: " ++ key.hex, ""]

/-- Makes some new keys, the first of which has the given number: the lines to show, and the error
that has kept the rest of the keys from being made, if any. -/
def generateFrom (number : Nat) : (count : Nat) → Entropy → List String × Option Key.Error
  | 0, _ => ([], none)
  | count + 1, entropy =>
    match Key.generate entropy with
    | (.error error, _) => ([], some error)
    | (.ok key, entropy) =>
      match keyLines number key with
      | .error error => ([], some error)
      | .ok lines =>
        -- once it is shown the key is erased, which takes random blocks as well
        let life := Key.Lifetime.finish ⟨key, entropy⟩
        let (rest, error) := generateFrom (number + 1) count life.entropy
        (lines ++ rest, error)

/-- Shows some new keys. -/
def generate (count : Nat) (entropy : Entropy) : Transcript :=
  match generateFrom 1 count entropy with
  | (lines, none) => .success lines
  | (lines, some error) => { Transcript.failure error.message with output := unlines lines }

/-- What a verdict says, in one line. -/
def verdictLine : Verdict → String
  | .confirmed address => "Confirmed: signature was produced by " ++ address
  | .mismatch claimed recovered =>
    "Not proven: claimed " ++ claimed ++ " but signer is " ++ recovered
  | .unrecoverable reason => "Not proven: " ++ reason

/-- The counts of a batch. -/
def tallyLines (tally : Batch.Tally) : List String :=
  ["", "--- Batch Statistics ---",
    "Records verified: " ++ Text.number tally.total.toNat,
    "Confirmed:        " ++ Text.number tally.confirmed.toNat,
    "Mismatched:       " ++ Text.number tally.mismatched.toNat,
    "Unrecoverable:    " ++ Text.number tally.unrecoverable.toNat]

/-- The outcomes of a batch, one on each line; then what its verifier tells, and its counts. -/
def showReport (verifier : Batch.Verifier) (report : Batch.Report) : Transcript :=
  { exitCode := 0
    output := unlines (report.outcomes.map fun outcome => Json.compact outcome.members)
    diagnostics := unlines (("INFO " ++ verifier.notice report.tally) :: tallyLines report.tally) }

/-- Carries out a command that has been validated. -/
def perform (supplies : Supplies) : Command → Transcript
  | .generate count => generate count.toNat supplies.entropy
  | .address key =>
    .ofResult Key.Error.message do
      let key ← Key.ofHex key
      let address ← key.address
      pure (addressLines address)
  | .checksum text => .success [Checksum.ofText text]
  | .sign key message record =>
    .ofResult Key.Error.message do
      let key ← Key.ofHex key
      if record then do
        let record ← Record.sign key message
        pure [Json.pretty record.members]
      else do
        let signature ← key.signHex (Text.bytes message)
        pure [signature]
  | .recover message signature =>
    .ofResult Recovery.Error.message do
      let address ← Recovery.signer (Text.bytes message) signature
      pure (addressLines address)
  | .verify address message signature =>
    let verdict := Record.verify ⟨address, message, signature, Record.currentVersion⟩
    { Transcript.success [verdictLine verdict] with
      exitCode := if verdict.isConfirmed then 0 else 2 }
  | .verifyBatch _ workers =>
    let verifier := Batch.Verifier.ofRequest
      ((workers.map UInt64.toNat).getD supplies.processors)
    match supplies.file with
    | .error error => .failure error.message
    | .ok file =>
      match Batch.read file with
      | .error error => .failure error.message
      | .ok records => showReport verifier (verifier.verify records)

/-- Carries out a command, or refuses it. -/
def run (supplies : Supplies) (command : Command) : Transcript :=
  match command.validate with
  | .error error => .refusal error
  | .ok () => perform supplies command

end Attest.Program
