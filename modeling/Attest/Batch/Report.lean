import Attest.Batch.Tally

/-!
# Verifying a batch

Every record of a batch is verified by one of several workers. The work on a record has three
steps: to verify and count it in the total, to count its verdict under its kind, and to hand in
the outcome. Between the steps of one record any steps of others may come; `Progress.step` is one
such step. A report is due when every outcome has been handed in, and `Verifier.verify` gives it.
-/

namespace Attest.Batch

/-- What became of one record. -/
structure Outcome where
  /-- the position of the record in its batch, from 0 -/
  index : Nat
  /-- the address that the record claims, as it is written there -/
  claimed : String
  verdict : Verdict
  deriving DecidableEq, Repr

/-- The members of an outcome as an object: its own, then those of the verdict. -/
def Outcome.members (outcome : Outcome) : Json.Members :=
  ("index", .number outcome.index) :: ("claimed_address", .text outcome.claimed) ::
    outcome.verdict.members

/-- The outcome of the record at a position. -/
def Outcome.ofRecord (index : Nat) (record : Record) : Outcome :=
  ⟨index, record.address, record.verify⟩

/-- The outcomes of a batch in the order of its records, and their count. -/
structure Report where
  outcomes : List Outcome
  tally : Tally
  deriving DecidableEq, Repr

/-! ## Work in any order -/

/-- How far the work on one record has come. -/
inductive Stage where
  | waiting
  /-- counted in the total -/
  | counted (outcome : Outcome)
  /-- counted under the kind of its verdict as well -/
  | tallied (outcome : Outcome)
  | handedIn (outcome : Outcome)
  deriving DecidableEq, Repr

/-- The state of the work on a batch. -/
structure Progress where
  /-- how far each record has come -/
  stages : List Stage
  tally : Tally
  deriving DecidableEq, Repr

namespace Progress

/-- No work done on any record. -/
def start (records : List Record) : Progress := ⟨records.map fun _ => .waiting, .zero⟩

/-- The next step of the work on the record at a position; nothing where no step is left. -/
def step (records : List Record) (progress : Progress) (index : Nat) : Progress :=
  match records[index]?, progress.stages[index]? with
  | some record, some .waiting =>
    { stages := progress.stages.set index (.counted (.ofRecord index record))
      tally := progress.tally.countTotal }
  | _, some (.counted outcome) =>
    { stages := progress.stages.set index (.tallied outcome)
      tally := progress.tally.countKind outcome.verdict.kind }
  | _, some (.tallied outcome) =>
    { progress with stages := progress.stages.set index (.handedIn outcome) }
  | _, _ => progress

/-- The state after some steps; a schedule names the record that each step works on. -/
def run (records : List Record) (schedule : List Nat) : Progress :=
  schedule.foldl (step records) (start records)

/-- The outcome that has been handed in, if there is one. -/
def handedIn? : Stage → Option Outcome
  | .handedIn outcome => some outcome
  | _ => none

/-- The report, once every outcome has been handed in. -/
def report? (progress : Progress) : Option Report := do
  let outcomes ← progress.stages.mapM handedIn?
  pure ⟨outcomes, progress.tally⟩

end Progress

/-! ## Verifiers -/

/-- A number of workers, at least one. -/
structure Verifier where
  workers : Nat
  one_le_workers : 1 ≤ workers

/-- A verifier with the number of workers asked for, or one worker if that is none. -/
def Verifier.ofRequest (requested : Nat) : Verifier := ⟨max requested 1, Nat.le_max_right ..⟩

/-- The report on a batch. It does not show how many workers there are. -/
def Verifier.verify (_ : Verifier) (records : List Record) : Report :=
  let outcomes := records.mapIdx Outcome.ofRecord
  ⟨outcomes, outcomes.foldl (fun tally outcome => tally.count outcome.verdict.kind) .zero⟩

/-- What a verifier tells of a batch when it is done with it. -/
def Verifier.notice (verifier : Verifier) (tally : Tally) : String :=
  "Batch verified total=" ++ Text.number tally.total.toNat ++
    " confirmed=" ++ Text.number tally.confirmed.toNat ++
    " workers=" ++ Text.number verifier.workers

/-! ## Speed -/

/-- Seconds as a double, from nanoseconds: the whole seconds, then the rest. -/
def seconds (nanoseconds : UInt64) : Float :=
  (nanoseconds / 1000000000).toFloat + (nanoseconds % 1000000000).toFloat / 1000000000

/-- How many records a second were verified; zero if no time has passed. -/
def recordsPerSecond (tally : Tally) (elapsed : UInt64) : Float :=
  if 0 < seconds elapsed then tally.total.toFloat / seconds elapsed else 0

end Attest.Batch
