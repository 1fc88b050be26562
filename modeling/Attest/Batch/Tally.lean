import Attest.Record

/-!
# Counting verdicts

Four counters of 64 bits, shared by everyone who counts; they wrap around. A verdict is counted in
two steps, first in the total and then under its kind, and the steps of several workers may come
in any order.
-/

namespace Attest.Batch

/-- The counters. -/
structure Tally where
  total : UInt64
  confirmed : UInt64
  mismatched : UInt64
  unrecoverable : UInt64
  deriving DecidableEq, Repr

namespace Tally

/-- Nothing counted. -/
def zero : Tally := ⟨0, 0, 0, 0⟩

/-- The first step of counting. -/
def countTotal (tally : Tally) : Tally := { tally with total := tally.total + 1 }

/-- The second step of counting. -/
def countKind (tally : Tally) : Verdict.Kind → Tally
  | .confirmed => { tally with confirmed := tally.confirmed + 1 }
  | .mismatch => { tally with mismatched := tally.mismatched + 1 }
  | .unrecoverable => { tally with unrecoverable := tally.unrecoverable + 1 }

/-- Counts a verdict of the given kind. -/
def count (tally : Tally) (kind : Verdict.Kind) : Tally := tally.countTotal.countKind kind

/-- The counter of a kind. -/
def ofKind (tally : Tally) : Verdict.Kind → UInt64
  | .confirmed => tally.confirmed
  | .mismatch => tally.mismatched
  | .unrecoverable => tally.unrecoverable

end Tally

end Attest.Batch
