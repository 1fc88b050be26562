import Mathlib
import Attest.Batch.Report
import Attest.Proofs.Batch.Tally

/-!
# Work in any order

The workers take the steps of their records in any order, and the counters are shared by all of
them. What holds at every moment is `Progress.Reached`: each record has come as far as the number
of its own steps says, whatever steps of other records came in between, and the counters show how
many records have taken the step that moves them. Where several batches are worked on, in turn or at
the same time, each goes its own way.

The main statements are `Progress.Reached.step`, `Progress.reached_run` and
`Progress.getElem?_runAll`.
-/

namespace Attest.Batch

variable {records : List Record} {progress : Progress} {steps : ℕ → ℕ}

/-! ## Stages -/

namespace Stage

/-- How far the work on a record with the given outcome has come after some steps. -/
def after (outcome : Outcome) : ℕ → Stage
  | 0 => .waiting
  | 1 => .counted outcome
  | 2 => .tallied outcome
  | _ + 3 => .handedIn outcome

/-- Whether the record has been counted in the total. -/
def inTotal : Stage → Bool
  | .waiting => false
  | _ => true

/-- Whether the record has been counted under the given kind. -/
def inKind (kind : Verdict.Kind) : Stage → Bool
  | .waiting | .counted _ => false
  | .tallied outcome | .handedIn outcome => outcome.verdict.kind = kind

theorem after_of_le {steps : ℕ} (h : 3 ≤ steps) (outcome : Outcome) :
    after outcome steps = .handedIn outcome := by
  obtain ⟨more, rfl⟩ := Nat.exists_eq_add_of_le' h
  rfl

theorem handedIn_of_after {outcome other : Outcome} {steps : ℕ}
    (h : after outcome steps = .handedIn other) : 3 ≤ steps := by
  by_contra hlt
  interval_cases steps <;> cases h

theorem inTotal_after (outcome : Outcome) (steps : ℕ) :
    inTotal (after outcome steps) = decide (1 ≤ steps) := by
  match steps with
  | 0 | 1 | 2 => rfl
  | more + 3 => simp [after, inTotal]

theorem inKind_after (kind : Verdict.Kind) (outcome : Outcome) (steps : ℕ) :
    inKind kind (after outcome steps) =
      (decide (2 ≤ steps) && decide (outcome.verdict.kind = kind)) := by
  match steps with
  | 0 | 1 | 2 => rfl
  | more + 3 => simp [after, inKind]

/-- Replacing one stage changes a count by what the two stages count for. -/
theorem countP_set_add (p : Stage → Bool) {stages : List Stage} {index : ℕ}
    (h : index < stages.length) (new : Stage) :
    (stages.set index new).countP p + (if p stages[index] then 1 else 0) =
      stages.countP p + if p new then 1 else 0 := by
  have hold : (if p stages[index] then 1 else 0) ≤ stages.countP p := by
    split_ifs with hp
    · exact List.countP_pos_iff.2 ⟨_, List.getElem_mem h, hp⟩
    · exact Nat.zero_le _
  rw [List.countP_set h]
  omega

/-- The first step of a record counts it in the total. -/
theorem countP_inTotal_set {stages : List Stage} {index taken : ℕ} {outcome : Outcome}
    (h : stages[index]? = some (after outcome taken)) :
    (stages.set index (after outcome (taken + 1))).countP inTotal =
      stages.countP inTotal + if taken = 0 then 1 else 0 := by
  obtain ⟨hlt, hget⟩ := List.getElem?_eq_some_iff.1 h
  have hcount := countP_set_add inTotal hlt (after outcome (taken + 1))
  rw [hget, inTotal_after, inTotal_after] at hcount
  simp only [decide_eq_true_eq] at hcount
  split_ifs at hcount ⊢ <;> omega

/-- The second step of a record counts it under the kind of its verdict. -/
theorem countP_inKind_set {stages : List Stage} {index taken : ℕ} {outcome : Outcome}
    (kind : Verdict.Kind) (h : stages[index]? = some (after outcome taken)) :
    (stages.set index (after outcome (taken + 1))).countP (inKind kind) =
      stages.countP (inKind kind) +
        if taken = 1 ∧ outcome.verdict.kind = kind then 1 else 0 := by
  obtain ⟨hlt, hget⟩ := List.getElem?_eq_some_iff.1 h
  have hcount := countP_set_add (inKind kind) hlt (after outcome (taken + 1))
  rw [hget, inKind_after, inKind_after] at hcount
  by_cases hkind : outcome.verdict.kind = kind
  · simp only [hkind, decide_true, Bool.and_true, and_true, decide_eq_true_eq] at hcount ⊢
    split_ifs at hcount ⊢ <;> omega
  · simp only [hkind, decide_false, Bool.and_false, and_false, Bool.false_eq_true, if_false]
      at hcount ⊢
    exact hcount

end Stage

namespace Progress

/-! ## One step -/

/-- The counters after the next step of a record with the given outcome that has taken some. -/
def counting (tally : Tally) (outcome : Outcome) : ℕ → Tally
  | 0 => tally.countTotal
  | 1 => tally.countKind outcome.verdict.kind
  | _ + 2 => tally

theorem total_counting (tally : Tally) (outcome : Outcome) (taken : ℕ) :
    (counting tally outcome taken).total = tally.total + if taken = 0 then 1 else 0 := by
  match taken with
  | 0 => rfl
  | 1 => simp [counting]
  | more + 2 => simp [counting]

theorem ofKind_counting (tally : Tally) (outcome : Outcome) (taken : ℕ) (kind : Verdict.Kind) :
    (counting tally outcome taken).ofKind kind =
      tally.ofKind kind + if taken = 1 ∧ outcome.verdict.kind = kind then 1 else 0 := by
  match taken with
  | 0 => simp [counting]
  | 1 => simp [counting]
  | more + 2 => simp [counting]

/-- A step takes its record one stage on, and moves the counter that this stage moves. -/
theorem step_eq {index taken : ℕ} {record : Record} (hrecord : records[index]? = some record)
    (hstage : progress.stages[index]? = some (.after (.ofRecord index record) taken)) :
    progress.step records index =
      ⟨progress.stages.set index (.after (.ofRecord index record) (taken + 1)),
        counting progress.tally (.ofRecord index record) taken⟩ := by
  rw [step, hrecord, hstage]
  match taken with
  | 0 => rfl
  | 1 => rfl
  | 2 => rfl
  | more + 3 =>
    -- nothing is left to do, and the stage is replaced by itself
    obtain ⟨hlt, hget⟩ := List.getElem?_eq_some_iff.1 hstage
    have hself : progress.stages.set index (.handedIn (.ofRecord index record)) =
        progress.stages := by
      have hset := List.set_getElem_self hlt
      rwa [hget] at hset
    exact congrArg (Progress.mk · progress.tally) hself.symm

theorem step_of_getElem?_eq_none {index : ℕ} (hrecord : records[index]? = none)
    (hstage : progress.stages[index]? = none) : progress.step records index = progress := by
  rw [step, hrecord, hstage]

/-! ## The invariant -/

theorem ofNat_add_ite (count : ℕ) (p : Prop) [Decidable p] :
    UInt64.ofNat (count + if p then 1 else 0) = UInt64.ofNat count + if p then 1 else 0 := by
  rw [UInt64.ofNat_add]
  split_ifs <;> rfl

/-- What holds after any steps: how many steps each record has taken tells how far it has come, and
the counters show how many records have taken the steps that move them. A record that has been
counted in the total but not yet under its kind is in the first count only. -/
structure Reached (records : List Record) (steps : ℕ → ℕ) (progress : Progress) : Prop where
  /-- no record is further on, or less far, than its own steps take it -/
  stages : progress.stages =
    records.mapIdx fun index record => .after (.ofRecord index record) (steps index)
  total : progress.tally.total = UInt64.ofNat (progress.stages.countP Stage.inTotal)
  kinds : ∀ kind, progress.tally.ofKind kind =
    UInt64.ofNat (progress.stages.countP (Stage.inKind kind))

theorem reached_start (records : List Record) : Reached records (fun _ => 0) (start records) := by
  have hstages : (start records).stages = records.mapIdx fun index record =>
      Stage.after (.ofRecord index record) 0 := by
    refine List.ext_getElem (by simp [start]) fun i hi hi' => ?_
    simp [start, Stage.after]
  have hwaiting : ∀ stage ∈ (start records).stages, stage = .waiting := by
    simp [start]
  refine ⟨hstages, ?_, fun kind => ?_⟩
  · rw [List.countP_eq_zero.2 fun stage hstage => by rw [hwaiting stage hstage]; decide]
    rfl
  · rw [List.countP_eq_zero.2 fun stage hstage => by
      rw [hwaiting stage hstage]
      exact Bool.false_ne_true]
    exact Tally.ofKind_zero kind

/-- One more step of one record is counted as such. -/
theorem mapIdx_update (records : List Record) (steps : ℕ → ℕ) {index : ℕ} {record : Record}
    (hrecord : records[index]? = some record) :
    (records.mapIdx fun i record => Stage.after (.ofRecord i record) (steps i)).set index
        (.after (.ofRecord index record) (steps index + 1)) =
      records.mapIdx fun i record =>
        .after (.ofRecord i record) (Function.update steps index (steps index + 1) i) := by
  refine List.ext_getElem (by simp) fun i hi hi' => ?_
  obtain ⟨hlt, rfl⟩ := List.getElem?_eq_some_iff.1 hrecord
  by_cases h : index = i
  · subst h
    simp
  · simp [h, Function.update_of_ne (Ne.symm h)]

/-- **The invariant is kept by every step.** -/
theorem Reached.step (h : Reached records steps progress) (index : ℕ) :
    Reached records (Function.update steps index (steps index + 1))
      (progress.step records index) := by
  rcases hrecord : records[index]? with _ | record
  · have hlength : records.length ≤ index := List.getElem?_eq_none_iff.1 hrecord
    have hstage : progress.stages[index]? = none := by
      rw [h.stages, List.getElem?_eq_none_iff, List.length_mapIdx]
      exact hlength
    rw [step_of_getElem?_eq_none hrecord hstage]
    refine ⟨?_, h.total, h.kinds⟩
    rw [h.stages]
    refine List.ext_getElem (by simp) fun i hi hi' => ?_
    have hne : i ≠ index := by
      rw [List.length_mapIdx] at hi
      omega
    simp [Function.update_of_ne hne]
  · have hstage : progress.stages[index]? =
        some (.after (.ofRecord index record) (steps index)) := by
      rw [h.stages, List.getElem?_mapIdx, hrecord]
      rfl
    rw [step_eq hrecord hstage]
    refine ⟨?_, ?_, fun kind => ?_⟩
    · rw [← mapIdx_update records steps hrecord, ← h.stages]
    · rw [total_counting, h.total, Stage.countP_inTotal_set hstage, ofNat_add_ite]
    · rw [ofKind_counting, h.kinds, Stage.countP_inKind_set kind hstage, ofNat_add_ite]

theorem run_concat (records : List Record) (schedule : List ℕ) (index : ℕ) :
    run records (schedule ++ [index]) = (run records schedule).step records index := by
  rw [run, List.foldl_append]
  rfl

/-- **The invariant holds after every schedule.** -/
theorem reached_run (records : List Record) (schedule : List ℕ) :
    Reached records (schedule.count ·) (run records schedule) := by
  induction schedule using List.reverseRecOn with
  | nil => exact reached_start records
  | append_singleton schedule index ih =>
    have hcount : (fun i => (schedule ++ [index]).count i) =
        Function.update (fun i => schedule.count i) index (schedule.count index + 1) := by
      funext i
      by_cases h : i = index
      · simp [h]
      · simp [h, Ne.symm h]
    rw [run_concat, hcount]
    exact ih.step index

/-! ## Several batches -/

/-- One step of the work on several batches: a turn names a batch and one of its records. -/
def stepAt (batches : List (List Record)) (states : List Progress) (turn : ℕ × ℕ) :
    List Progress :=
  states.modify turn.1 fun progress => progress.step (batches.getD turn.1 []) turn.2

/-- The states of several batches after some turns, which may come batch by batch or mixed. -/
def runAll (batches : List (List Record)) (turns : List (ℕ × ℕ)) : List Progress :=
  turns.foldl (stepAt batches) (batches.map start)

/-- The steps of one batch among some turns. -/
def turnsOf (batch : ℕ) (turns : List (ℕ × ℕ)) : List ℕ :=
  (turns.filter (·.1 = batch)).map (·.2)

/-- **A batch goes its own way**: the steps of other batches, earlier ones or others, change nothing
for it. -/
theorem getElem?_runAll (batches : List (List Record)) (turns : List (ℕ × ℕ)) (batch : ℕ) :
    (runAll batches turns)[batch]? =
      batches[batch]?.map fun records => run records (turnsOf batch turns) := by
  induction turns using List.reverseRecOn with
  | nil => simp [runAll, turnsOf, run]
  | append_singleton turns turn ih =>
    have hlast : runAll batches (turns ++ [turn]) = stepAt batches (runAll batches turns) turn := by
      rw [runAll, List.foldl_append]
      rfl
    rw [hlast, stepAt, List.getElem?_modify, ih]
    by_cases h : turn.1 = batch
    · subst h
      have hturns : turnsOf turn.1 (turns ++ [turn]) = turnsOf turn.1 turns ++ [turn.2] := by
        simp [turnsOf]
      rw [hturns]
      cases hbatch : batches[turn.1]? with
      | none => simp
      | some records => simp [run_concat, List.getD, hbatch]
    · have hturns : turnsOf batch (turns ++ [turn]) = turnsOf batch turns := by
        simp [turnsOf, h]
      rw [hturns]
      simp [h]

end Progress

end Attest.Batch
