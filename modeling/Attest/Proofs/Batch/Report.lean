import Mathlib
import Attest.Batch.Report
import Attest.Proofs.Batch.Progress

/-!
# The report on a batch

The report is there once every record has taken its three steps, and it is the same for every
schedule and every number of workers: that of a verifier that goes through the batch in order. It
has one outcome for each record, in their order, and counts them.

The main statements are `Progress.report?_run_eq_some_iff`, `Verifier.outcomes_verify_append`
and `Verifier.verify_spec`.
-/

namespace Attest.Batch

variable {records : List Record} {progress : Progress}

namespace Progress

/-! ## The report -/

theorem mapM_handedIn?_eq_some_iff {stages : List Stage} {outcomes : List Outcome} :
    stages.mapM handedIn? = some outcomes ↔ stages = outcomes.map .handedIn := by
  induction stages generalizing outcomes with
  | nil => cases outcomes <;> simp
  | cons stage stages ih =>
    rw [List.mapM_cons]
    simp only [bind, Option.bind_eq_some_iff, pure, Option.some.injEq, ih]
    cases stage <;> cases outcomes <;> simp [handedIn?, and_comm]

/-- A report is given exactly if every outcome has been handed in. -/
theorem report?_eq_some_iff {report : Report} :
    progress.report? = some report ↔
      progress.stages = report.outcomes.map .handedIn ∧ progress.tally = report.tally := by
  obtain ⟨outcomes, tally⟩ := report
  rw [report?]
  simp only [bind, Option.bind_eq_some_iff, mapM_handedIn?_eq_some_iff, pure, Option.some.injEq,
    Report.mk.injEq]
  exact ⟨fun ⟨_, hstages, hoc, htally⟩ => ⟨hoc ▸ hstages, htally⟩,
    fun ⟨hstages, htally⟩ => ⟨outcomes, hstages, rfl, htally⟩⟩

end Progress

/-! ## The verifier -/

namespace Verifier

variable (verifier : Verifier)

theorem outcomes_verify (records : List Record) :
    (verifier.verify records).outcomes = records.mapIdx Outcome.ofRecord := rfl

theorem tally_verify (records : List Record) :
    (verifier.verify records).tally =
      ((verifier.verify records).outcomes.map (·.verdict.kind)).foldl Tally.count .zero := by
  rw [List.foldl_map]
  rfl

theorem total_verify (records : List Record) :
    (verifier.verify records).tally.total = UInt64.ofNat records.length := by
  rw [tally_verify, Tally.total_foldl_count, Tally.total_zero, UInt64.zero_add, List.length_map,
    outcomes_verify, List.length_mapIdx]

theorem ofKind_verify (records : List Record) (kind : Verdict.Kind) :
    (verifier.verify records).tally.ofKind kind =
      UInt64.ofNat ((verifier.verify records).outcomes.countP (·.verdict.isOf kind)) := by
  simp only [← Verdict.decide_kind_eq]
  rw [tally_verify, Tally.ofKind_foldl_count, Tally.ofKind_zero, UInt64.zero_add,
    List.count_eq_countP, List.countP_map]
  rfl

end Verifier

namespace Progress

/-- Whether a schedule has all three steps of every record. -/
def Done (records : List Record) (schedule : List ℕ) : Prop :=
  ∀ index < records.length, 3 ≤ schedule.count index

instance (records : List Record) (schedule : List ℕ) : Decidable (Done records schedule) :=
  inferInstanceAs (Decidable (∀ index < records.length, 3 ≤ schedule.count index))

/-- **The report does not depend on the schedule.** It is given exactly once all steps are done, and
it is the one of any verifier. -/
theorem report?_run_eq_some_iff (verifier : Verifier) {schedule : List ℕ} {report : Report} :
    (run records schedule).report? = some report ↔
      Done records schedule ∧ report = verifier.verify records := by
  have hreached := reached_run records schedule
  have hdone : Done records schedule →
      (run records schedule).report? = some (verifier.verify records) := by
    intro h
    have hstages : (run records schedule).stages =
        (verifier.verify records).outcomes.map .handedIn := by
      rw [hreached.stages, Verifier.outcomes_verify]
      refine List.ext_getElem (by simp) fun i hi hi' => ?_
      rw [List.length_mapIdx] at hi
      simp [Stage.after_of_le (h i hi)]
    refine report?_eq_some_iff.2 ⟨hstages, Tally.ext_ofKind ?_ fun kind => ?_⟩
    · have hall : (verifier.verify records).outcomes.countP (Stage.inTotal ∘ .handedIn) =
          records.length :=
        (List.countP_eq_length.2 fun _ _ => rfl).trans List.length_mapIdx
      rw [hreached.total, Verifier.total_verify, hstages, List.countP_map, hall]
    · simp only [hreached.kinds, Verifier.ofKind_verify, hstages, List.countP_map,
        ← Verdict.decide_kind_eq]
      rfl
  refine ⟨fun h => ?_, fun ⟨h, hreport⟩ => hreport ▸ hdone h⟩
  have hall : Done records schedule := by
    intro index hindex
    have hstage : (report.outcomes.map Stage.handedIn)[index]? =
        some (.after (.ofRecord index records[index]) (schedule.count index)) := by
      rw [← (report?_eq_some_iff.1 h).1, hreached.stages]
      simp [hindex]
    rw [List.getElem?_map] at hstage
    obtain ⟨outcome, -, houtcome⟩ := Option.map_eq_some_iff.1 hstage
    exact Stage.handedIn_of_after houtcome.symm
  exact ⟨hall, Option.some.inj (h.symm.trans (hdone hall))⟩

end Progress

/-! ## What the report says -/

/-- An outcome in a batch that has some more records in front. -/
def Outcome.shift (count : ℕ) (outcome : Outcome) : Outcome :=
  { outcome with index := outcome.index + count }

/-- What a report says of a batch: one outcome for each record, in their order, and how many there
are in all and of each kind. -/
structure Report.Describes (report : Report) (records : List Record) : Prop where
  length : report.outcomes.length = records.length
  outcome : ∀ (index : ℕ) (hindex : index < records.length), report.outcomes[index]? =
    some ⟨index, records[index].address, records[index].verify⟩
  total : report.tally.total.toNat = records.length
  counts : ∀ kind, (report.tally.ofKind kind).toNat =
    report.outcomes.countP (·.verdict.isOf kind)
  sum : report.tally.total.toNat = report.tally.confirmed.toNat +
    report.tally.mismatched.toNat + report.tally.unrecoverable.toNat

/-- Every outcome has a verdict of one of the three kinds. -/
theorem length_eq_add_countP_isOf (outcomes : List Outcome) :
    outcomes.length = outcomes.countP (·.verdict.isOf .confirmed) +
      outcomes.countP (·.verdict.isOf .mismatch) +
      outcomes.countP (·.verdict.isOf .unrecoverable) := by
  have hverdicts := Tally.length_eq_add_countP_kind (outcomes.map (·.verdict))
  simp only [Verdict.decide_kind_eq] at hverdicts
  rw [List.length_map, List.countP_map, List.countP_map, List.countP_map] at hverdicts
  exact hverdicts

namespace Verifier

variable (verifier : Verifier)

theorem outcomes_verify_append (first second : List Record) :
    (verifier.verify (first ++ second)).outcomes =
      (verifier.verify first).outcomes ++
        (verifier.verify second).outcomes.map (Outcome.shift first.length) := by
  have hshift : second.mapIdx (fun index => Outcome.ofRecord (index + first.length)) =
      (second.mapIdx Outcome.ofRecord).map (Outcome.shift first.length) := by
    refine List.ext_getElem (by simp) fun i hi hi' => ?_
    simp [Outcome.ofRecord, Outcome.shift]
  simp only [outcomes_verify, List.mapIdx_append, hshift]

theorem countP_verify_append (first second : List Record) (kind : Verdict.Kind) :
    (verifier.verify (first ++ second)).outcomes.countP (·.verdict.isOf kind) =
      (verifier.verify first).outcomes.countP (·.verdict.isOf kind) +
        (verifier.verify second).outcomes.countP (·.verdict.isOf kind) := by
  rw [outcomes_verify_append, List.countP_append, List.countP_map]
  rfl

section Size

variable (hsize : records.length < 2 ^ 64)

include hsize

/-- The total of a batch that the counters have room for. -/
theorem toNat_total_verify : (verifier.verify records).tally.total.toNat = records.length := by
  rw [total_verify, UInt64.toNat_ofNat', Nat.mod_eq_of_lt hsize]

/-- The count of a kind in a batch that the counters have room for. -/
theorem toNat_ofKind_verify (kind : Verdict.Kind) :
    ((verifier.verify records).tally.ofKind kind).toNat =
      (verifier.verify records).outcomes.countP (·.verdict.isOf kind) := by
  have hle : (verifier.verify records).outcomes.countP (·.verdict.isOf kind) ≤ records.length :=
    List.countP_le_length.trans_eq List.length_mapIdx
  rw [ofKind_verify, UInt64.toNat_ofNat', Nat.mod_eq_of_lt (hle.trans_lt hsize)]

end Size

/-- **A verifier reports on every record**, where the counters have room for all of them. -/
theorem describes_verify (hsize : records.length < 2 ^ 64) :
    (verifier.verify records).Describes records := by
  have htotal := verifier.toNat_total_verify hsize
  have hkinds := verifier.toNat_ofKind_verify hsize
  have hlength : (verifier.verify records).outcomes.length = records.length := List.length_mapIdx
  refine ⟨hlength, fun index hindex => ?_, htotal, hkinds, ?_⟩
  · simp [outcomes_verify, hindex, Outcome.ofRecord]
  · rw [length_eq_add_countP_isOf, ← hkinds, ← hkinds, ← hkinds] at hlength
    rw [htotal, ← hlength]
    rfl

/-- **The report on a batch is complete and in order, whatever the schedule.** For every number of
workers that is asked for and every order of their steps, the report that is given is the one of the
verifier, and it describes the batch. Other batches that are worked on before or meanwhile play no
part. The report on a batch put together of two has the outcomes of the first and then those of the
second, further on by the length of the first, and the sums of their counters. -/
theorem verify_spec (requested : ℕ) (records : List Record) (hsize : records.length < 2 ^ 64) :
    (ofRequest requested).workers = (if requested = 0 then 1 else requested) ∧
    ((ofRequest requested).verify records).Describes records ∧
    (∀ schedule report, (Progress.run records schedule).report? = some report ↔
      Progress.Done records schedule ∧ report = (ofRequest requested).verify records) ∧
    (∀ batches turns batch, batches[batch]? = some records →
      Progress.Done records (Progress.turnsOf batch turns) →
      (Progress.runAll batches turns)[batch]?.bind Progress.report? =
        some ((ofRequest requested).verify records)) ∧
    ∀ first second, records = first ++ second →
      ((ofRequest requested).verify records).outcomes =
        ((ofRequest requested).verify first).outcomes ++
          ((ofRequest requested).verify second).outcomes.map (Outcome.shift first.length) ∧
      ((ofRequest requested).verify records).tally.total.toNat =
        ((ofRequest requested).verify first).tally.total.toNat +
          ((ofRequest requested).verify second).tally.total.toNat ∧
      ∀ kind, (((ofRequest requested).verify records).tally.ofKind kind).toNat =
        (((ofRequest requested).verify first).tally.ofKind kind).toNat +
          (((ofRequest requested).verify second).tally.ofKind kind).toNat := by
  refine ⟨?_, describes_verify _ hsize, fun schedule report =>
    Progress.report?_run_eq_some_iff _, ?_, ?_⟩
  · change max requested 1 = _
    split_ifs <;> omega
  · intro batches turns batch hbatch hdone
    rw [Progress.getElem?_runAll, hbatch]
    exact (Progress.report?_run_eq_some_iff _).2 ⟨hdone, rfl⟩
  · rintro first second rfl
    have hlength : (first ++ second).length = first.length + second.length := List.length_append
    have hfirst : first.length < 2 ^ 64 := by omega
    have hsecond : second.length < 2 ^ 64 := by omega
    refine ⟨outcomes_verify_append _ first second, ?_, fun kind => ?_⟩
    · rw [toNat_total_verify _ hsize, toNat_total_verify _ hfirst, toNat_total_verify _ hsecond,
        hlength]
    · rw [toNat_ofKind_verify _ hsize, toNat_ofKind_verify _ hfirst, toNat_ofKind_verify _ hsecond,
        countP_verify_append]

/-- Two workers that take turns, over a batch of two records that nobody signed. -/
theorem verify_spec_interleaved :
    [Record.mk "0xA" "hi" "0x00" "2", Record.mk "0xB" "hi" "" "2"].length < 2 ^ 64 ∧
      (Progress.run [Record.mk "0xA" "hi" "0x00" "2", Record.mk "0xB" "hi" "" "2"]
        [0, 1, 1, 0, 1, 0]).report? =
        some ((ofRequest 2).verify [Record.mk "0xA" "hi" "0x00" "2", Record.mk "0xB" "hi" "" "2"]) ∧
      ((ofRequest 2).verify
        [Record.mk "0xA" "hi" "0x00" "2", Record.mk "0xB" "hi" "" "2"]).tally.total.toNat = 2 := by
  have hsize : [Record.mk "0xA" "hi" "0x00" "2", Record.mk "0xB" "hi" "" "2"].length < 2 ^ 64 := by
    decide
  obtain ⟨-, hdescribes, hreport, -⟩ := verify_spec 2 _ hsize
  exact ⟨hsize, (hreport _ _).2 ⟨by decide, rfl⟩, hdescribes.total⟩

end Verifier

end Attest.Batch
