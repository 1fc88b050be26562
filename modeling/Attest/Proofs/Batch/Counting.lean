import Mathlib
import Attest.Batch.Tally
import Attest.Proofs.Batch.Tally

/-!
# Counting by several workers

Some workers count verdicts with the same counters. These may show any numbers to begin with, and
each of them wraps around in its own time. A worker counts a verdict in two steps, and between the
two any steps of the others may come: in the meantime its verdict is in the total and not yet under
its kind. What never changes is that what the counters show and what is left for them to count add
up to all of the verdicts (`Counting.Balanced`). So the total is ahead of the other counters by the
number of verdicts that are under way, and once nothing is left, the counters are those of somebody
who has counted the verdicts one after the other.

The main statements are `Counting.balanced_run`, `Counting.Balanced.ahead` and
`Counting.counters_add_up`.
-/

namespace Attest.Batch

/-- A turn of a worker: to go on with its verdict or, if it has none, to take up the one that stands
at a place among those that are waiting. -/
structure Turn where
  worker : ℕ
  place : ℕ
  deriving DecidableEq, Repr

/-- The state of workers that count verdicts with the same counters. -/
structure Counting where
  tally : Tally
  /-- the verdicts that nobody has taken up -/
  waiting : List Verdict
  /-- for each worker the verdict that is in the total and not yet under its kind, if it has one -/
  workers : List (Option Verdict)
  deriving DecidableEq, Repr

namespace Counting

variable {initial : Tally} {verdicts : List Verdict} {state next : Counting} {turn : Turn}
  {verdict : Verdict}

/-- Nothing counted, and nothing taken up by any of the workers. -/
def start (initial : Tally) (verdicts : List Verdict) (workers : ℕ) : Counting :=
  ⟨initial, verdicts, List.replicate workers none⟩

/-- The next step of a worker. A turn of a worker that does not exist, or that finds no verdict at
the place, changes nothing. -/
def step (state : Counting) (turn : Turn) : Counting :=
  match state.workers[turn.worker]?, state.waiting[turn.place]? with
  | some (some verdict), _ =>
    { state with
      tally := state.tally.countKind verdict.kind
      workers := state.workers.set turn.worker none }
  | some none, some verdict =>
    { tally := state.tally.countTotal
      waiting := state.waiting.eraseIdx turn.place
      workers := state.workers.set turn.worker (some verdict) }
  | _, _ => state

/-- The state after some turns, in any order. -/
def run (state : Counting) (schedule : List Turn) : Counting := schedule.foldl step state

/-- The verdicts that are in the total and not yet under their kind. -/
def underway (state : Counting) : List Verdict := state.workers.reduceOption

/-- The verdicts that are not yet under their kind. -/
def left (state : Counting) : List Verdict := state.underway ++ state.waiting

/-- Whether every verdict has been counted in both steps. -/
def Finished (state : Counting) : Prop := state.left = []

instance (state : Counting) : Decidable state.Finished :=
  inferInstanceAs (Decidable (state.left = []))

/-! ## What a step does -/

/-- The first step of a verdict. -/
structure Begins (verdict : Verdict) (state next : Counting) : Prop where
  tally : next.tally = state.tally.countTotal
  waiting : state.waiting.Perm (verdict :: next.waiting)
  underway : next.underway.Perm (verdict :: state.underway)

/-- The second step of a verdict. -/
structure Completes (verdict : Verdict) (state next : Counting) : Prop where
  tally : next.tally = state.tally.countKind verdict.kind
  waiting : next.waiting = state.waiting
  underway : state.underway.Perm (verdict :: next.underway)

theorem reduceOption_cons (first : Option Verdict) (workers : List (Option Verdict)) :
    (first :: workers).reduceOption = first.toList ++ workers.reduceOption := by
  cases first <;> rfl

/-- A worker exchanges what it had for what it has now. -/
theorem perm_reduceOption_set {workers : List (Option Verdict)} {worker : ℕ}
    {old : Option Verdict} (h : workers[worker]? = some old) (new : Option Verdict) :
    (old.toList ++ (workers.set worker new).reduceOption).Perm
      (new.toList ++ workers.reduceOption) := by
  induction workers generalizing worker with
  | nil => cases h
  | cons first workers ih =>
    cases worker with
    | zero =>
      obtain rfl : first = old := Option.some.inj h
      rw [List.set_cons_zero, reduceOption_cons, reduceOption_cons]
      exact List.perm_append_comm_assoc ..
    | succ worker =>
      rw [List.set_cons_succ, reduceOption_cons, reduceOption_cons]
      have hrest := (ih h).append_left first.toList
      exact (List.perm_append_comm_assoc ..).trans
        (hrest.trans (List.perm_append_comm_assoc ..))

theorem begins_step (hworker : state.workers[turn.worker]? = some none)
    (hplace : state.waiting[turn.place]? = some verdict) :
    Begins verdict state (state.step turn) := by
  have hstep : state.step turn = ⟨state.tally.countTotal, state.waiting.eraseIdx turn.place,
      state.workers.set turn.worker (some verdict)⟩ := by
    rw [step, hworker, hplace]
  obtain ⟨hlt, hget⟩ := List.getElem?_eq_some_iff.1 hplace
  rw [hstep]
  refine ⟨rfl, ?_, perm_reduceOption_set hworker (some verdict)⟩
  rw [← hget]
  exact (List.getElem_cons_eraseIdx_perm hlt).symm

theorem completes_step (hworker : state.workers[turn.worker]? = some (some verdict)) :
    Completes verdict state (state.step turn) := by
  have hstep : state.step turn = ⟨state.tally.countKind verdict.kind, state.waiting,
      state.workers.set turn.worker none⟩ := by
    rw [step, hworker]
  rw [hstep]
  exact ⟨rfl, rfl, (perm_reduceOption_set hworker none).symm⟩

/-- A step is the first one or the second one of some verdict, or it changes nothing. -/
theorem step_cases (state : Counting) (turn : Turn) :
    (∃ verdict, Begins verdict state (state.step turn)) ∨
      (∃ verdict, Completes verdict state (state.step turn)) ∨ state.step turn = state := by
  rcases hworker : state.workers[turn.worker]? with _ | _ | verdict
  · exact .inr (.inr (by rw [step, hworker]))
  · rcases hplace : state.waiting[turn.place]? with _ | verdict
    · exact .inr (.inr (by rw [step, hworker, hplace]))
    · exact .inl ⟨verdict, begins_step hworker hplace⟩
  · exact .inr (.inl ⟨verdict, completes_step hworker⟩)

theorem length_workers_step (state : Counting) (turn : Turn) :
    (state.step turn).workers.length = state.workers.length := by
  rw [step]
  split
  · exact List.length_set
  · exact List.length_set
  · rfl

theorem Begins.left (h : Begins verdict state next) : next.left.Perm state.left :=
  (h.underway.append_right _).trans
    (List.perm_middle.symm.trans (h.waiting.symm.append_left _))

theorem Completes.left (h : Completes verdict state next) :
    state.left.Perm (verdict :: next.left) := by
  rw [Counting.left, Counting.left, h.waiting]
  exact h.underway.append_right _

/-! ## The invariant -/

/-- What holds at every moment: what is counted and what is left to count add up. The first step of
a verdict takes it off what is left for the total, and the second one off what is left for its
kind. -/
structure Balanced (initial : Tally) (verdicts : List Verdict) (state : Counting) : Prop where
  total : state.tally.total + UInt64.ofNat state.waiting.length =
    initial.total + UInt64.ofNat verdicts.length
  kinds : ∀ kind, state.tally.ofKind kind + UInt64.ofNat (state.left.countP (·.kind = kind)) =
    initial.ofKind kind + UInt64.ofNat (verdicts.countP (·.kind = kind))

theorem balanced_start (initial : Tally) (verdicts : List Verdict) (workers : ℕ) :
    Balanced initial verdicts (start initial verdicts workers) := by
  have hleft : (start initial verdicts workers).left = verdicts := by
    simp [left, underway, start]
  refine ⟨rfl, fun kind => ?_⟩
  rw [hleft]
  rfl

theorem Balanced.begins (h : Balanced initial verdicts state)
    (hbegins : Begins verdict state next) : Balanced initial verdicts next := by
  refine ⟨?_, fun kind => ?_⟩
  · have htotal := h.total
    rw [hbegins.waiting.length_eq, List.length_cons, UInt64.ofNat_add] at htotal
    rw [hbegins.tally, Tally.total_countTotal, ← htotal, UInt64.add_assoc, UInt64.add_comm 1]
    rfl
  · rw [hbegins.tally, Tally.ofKind_countTotal, hbegins.left.countP_eq]
    exact h.kinds kind

theorem Balanced.completes (h : Balanced initial verdicts state)
    (hcompletes : Completes verdict state next) : Balanced initial verdicts next := by
  refine ⟨?_, fun kind => ?_⟩
  · rw [hcompletes.tally, Tally.total_countKind, hcompletes.waiting]
    exact h.total
  · have hkind := h.kinds kind
    rw [hcompletes.left.countP_eq, List.countP_cons] at hkind
    rw [hcompletes.tally, Tally.ofKind_countKind, ← hkind]
    by_cases heq : verdict.kind = kind
    · simp only [heq, if_true, decide_true, UInt64.ofNat_add]
      rw [UInt64.add_assoc, UInt64.add_comm 1]
      rfl
    · simp [heq]

/-- **The balance is kept by every step.** -/
theorem Balanced.step (h : Balanced initial verdicts state) (turn : Turn) :
    Balanced initial verdicts (state.step turn) := by
  obtain ⟨verdict, hbegins⟩ | ⟨verdict, hcompletes⟩ | hsame := step_cases state turn
  · exact h.begins hbegins
  · exact h.completes hcompletes
  · rwa [hsame]

theorem Balanced.run (h : Balanced initial verdicts state) (schedule : List Turn) :
    Balanced initial verdicts (state.run schedule) := by
  induction schedule generalizing state with
  | nil => exact h
  | cons turn schedule ih => exact ih (h.step turn)

/-- **The balance holds at every moment**, whatever the order of the turns. -/
theorem balanced_run (initial : Tally) (verdicts : List Verdict) (workers : ℕ)
    (schedule : List Turn) :
    Balanced initial verdicts ((start initial verdicts workers).run schedule) :=
  (balanced_start initial verdicts workers).run schedule

/-! ## What the counters show -/

open scoped UInt64.CommRing in
/-- **The total is ahead of the other counters** by the number of verdicts under way. -/
theorem Balanced.ahead (h : Balanced initial verdicts state) :
    state.tally.total - initial.total =
      (state.tally.confirmed - initial.confirmed) +
        (state.tally.mismatched - initial.mismatched) +
        (state.tally.unrecoverable - initial.unrecoverable) +
        UInt64.ofNat state.underway.length := by
  have hall := congrArg UInt64.ofNat (Tally.length_eq_add_countP_kind verdicts)
  have hleft := congrArg UInt64.ofNat (Tally.length_eq_add_countP_kind state.left)
  rw [left, List.length_append, ← left] at hleft
  simp only [UInt64.ofNat_add] at hall hleft
  have hconfirmed := h.kinds .confirmed
  have hmismatched := h.kinds .mismatch
  have hunrecoverable := h.kinds .unrecoverable
  simp only [Tally.ofKind] at hconfirmed hmismatched hunrecoverable
  linear_combination h.total - hconfirmed - hmismatched - hunrecoverable + hall - hleft

/-- Once nothing is left, the counters are the same as if the verdicts had been counted one after
the other. -/
theorem Balanced.tally_eq (h : Balanced initial verdicts state) (hfinished : state.Finished) :
    state.tally = (verdicts.map (·.kind)).foldl Tally.count initial := by
  obtain ⟨-, hwaiting⟩ := List.append_eq_nil_iff.1 hfinished
  refine Tally.ext_ofKind ?_ fun kind => ?_
  · have htotal := h.total
    rw [hwaiting] at htotal
    rw [Tally.total_foldl_count, List.length_map, ← htotal]
    simp
  · have hkind := h.kinds kind
    have hnone : UInt64.ofNat 0 = 0 := rfl
    rw [hfinished, List.countP_nil, hnone, UInt64.add_zero] at hkind
    rw [Tally.ofKind_foldl_count, List.count_eq_countP, List.countP_map]
    exact hkind

theorem Balanced.of_perm {order : List Verdict} (h : Balanced initial order state)
    (hperm : order.Perm verdicts) : Balanced initial verdicts state := by
  refine ⟨?_, fun kind => ?_⟩
  · rw [← hperm.length_eq]
    exact h.total
  · rw [← hperm.countP_eq]
    exact h.kinds kind

/-! ## Every run comes to an end -/

/-- How many steps it takes to count what is left. -/
def stepsLeft (state : Counting) : ℕ := state.waiting.length + state.left.length

theorem Begins.stepsLeft (h : Begins verdict state next) :
    state.stepsLeft = next.stepsLeft + 1 := by
  rw [Counting.stepsLeft, Counting.stepsLeft, h.waiting.length_eq, h.left.length_eq,
    List.length_cons, Nat.add_right_comm]

theorem Completes.stepsLeft (h : Completes verdict state next) :
    state.stepsLeft = next.stepsLeft + 1 := by
  rw [Counting.stepsLeft, Counting.stepsLeft, h.waiting, h.left.length_eq, List.length_cons,
    Nat.add_assoc]

/-- While something is left to count, some worker can take a step. -/
theorem exists_turn (hworkers : state.workers ≠ []) (hleft : ¬state.Finished) :
    ∃ turn, state.stepsLeft = (state.step turn).stepsLeft + 1 := by
  rcases hunderway : state.underway with _ | ⟨verdict, others⟩
  · -- no worker has a verdict, so that any of them takes up any that is waiting
    obtain ⟨first, hfirst⟩ := List.exists_mem_of_ne_nil _ hworkers
    obtain ⟨worker, hworker⟩ := List.mem_iff_getElem?.1 hfirst
    have hfree : first = none := by
      by_contra hbusy
      obtain ⟨verdict, rfl⟩ := Option.ne_none_iff_exists'.1 hbusy
      have hmem : verdict ∈ state.underway := List.reduceOption_mem_iff.2 hfirst
      rw [hunderway] at hmem
      cases hmem
    have hwaiting : state.waiting ≠ [] := fun hnil => hleft (by
      rw [Finished, left, hunderway, hnil]
      rfl)
    obtain ⟨verdict, hverdict⟩ := List.exists_mem_of_ne_nil _ hwaiting
    obtain ⟨place, hplace⟩ := List.mem_iff_getElem?.1 hverdict
    exact ⟨⟨worker, place⟩, (begins_step (hfree ▸ hworker) hplace).stepsLeft⟩
  · have hmem : verdict ∈ state.underway := hunderway ▸ List.mem_cons_self
    obtain ⟨worker, hworker⟩ := List.mem_iff_getElem?.1 (List.reduceOption_mem_iff.1 hmem)
    exact ⟨⟨worker, 0⟩, (completes_step hworker).stepsLeft⟩

/-- **A run can be finished from wherever it stands**, in two steps for each verdict that is waiting
and one for each that is under way. -/
theorem exists_finished (hworkers : state.workers ≠ []) :
    ∃ schedule, schedule.length = state.stepsLeft ∧ (state.run schedule).Finished := by
  induction hsteps : state.stepsLeft generalizing state with
  | zero =>
    have hleft : state.left.length = 0 := by
      rw [stepsLeft] at hsteps
      omega
    exact ⟨[], rfl, List.eq_nil_of_length_eq_zero hleft⟩
  | succ steps ih =>
    have hleft : ¬state.Finished := by
      intro hfinished
      obtain ⟨-, hwaiting⟩ := List.append_eq_nil_iff.1 hfinished
      rw [stepsLeft, hfinished, hwaiting] at hsteps
      cases hsteps
    obtain ⟨turn, hturn⟩ := exists_turn hworkers hleft
    have hstill : (state.step turn).workers ≠ [] := by
      rwa [← List.length_pos_iff, length_workers_step, List.length_pos_iff]
    obtain ⟨schedule, hlength, hfinished⟩ := ih hstill (by omega)
    exact ⟨turn :: schedule, by rw [List.length_cons, hlength], hfinished⟩

theorem length_workers_run (state : Counting) (schedule : List Turn) :
    (state.run schedule).workers.length = state.workers.length := by
  induction schedule generalizing state with
  | nil => rfl
  | cons turn schedule ih => exact (ih _).trans (length_workers_step state turn)

/-! ## The law of the counters -/

/-- Whether a state is reached by some workers that start with the given counters and verdicts. -/
def Reachable (initial : Tally) (verdicts : List Verdict) (workers : ℕ) (state : Counting) : Prop :=
  ∃ schedule, (start initial verdicts workers).run schedule = state

/-- **The counters add up, in whatever order the steps come.** In every state that is reached, the
total has moved on by as much as the three other counters together and, on top of that, by the
number of verdicts that have taken the first step only. Once all is counted, each counter has moved
on by the number of verdicts that belong to it; where the verdicts stand, who counts them and in
which order play no part. This is modulo `2 ^ 64` throughout. Every run can be finished, as long as
there is a worker. -/
theorem counters_add_up {initial : Tally} {verdicts : List Verdict} {workers : ℕ}
    {state : Counting} (hreach : Reachable initial verdicts workers state) :
    state.tally.total - initial.total =
      (state.tally.confirmed - initial.confirmed) +
        (state.tally.mismatched - initial.mismatched) +
        (state.tally.unrecoverable - initial.unrecoverable) +
        UInt64.ofNat state.underway.length ∧
    (state.Finished →
      state.tally.total.toNat = (initial.total.toNat + verdicts.length) % 2 ^ 64 ∧
      (∀ kind, (state.tally.ofKind kind).toNat =
        ((initial.ofKind kind).toNat + verdicts.countP (·.kind = kind)) % 2 ^ 64) ∧
      (initial = .zero → state.tally.total =
        state.tally.confirmed + state.tally.mismatched + state.tally.unrecoverable) ∧
      ∀ order workers' other, order.Perm verdicts → Reachable initial order workers' other →
        other.Finished → other.tally = state.tally) ∧
    (0 < workers → ∃ schedule, (state.run schedule).Finished) := by
  obtain ⟨schedule, rfl⟩ := hreach
  have hbalanced := balanced_run initial verdicts workers schedule
  refine ⟨hbalanced.ahead, fun hfinished => ⟨?_, fun kind => ?_, ?_, ?_⟩, fun hworkers => ?_⟩
  · rw [hbalanced.tally_eq hfinished, Tally.total_foldl_count, List.length_map, UInt64.toNat_add,
      UInt64.toNat_ofNat', Nat.add_mod_mod]
  · rw [hbalanced.tally_eq hfinished, Tally.ofKind_foldl_count, List.count_eq_countP,
      List.countP_map, UInt64.toNat_add, UInt64.toNat_ofNat', Nat.add_mod_mod]
    rfl
  · rintro rfl
    obtain ⟨hunderway, -⟩ := List.append_eq_nil_iff.1 hfinished
    have hahead := hbalanced.ahead
    rw [hunderway] at hahead
    simpa [Tally.zero] using hahead
  · rintro order workers' other hperm ⟨schedule', rfl⟩ hother
    have hbalanced' := (balanced_run initial order workers' schedule').of_perm hperm
    rw [hbalanced'.tally_eq hother, hbalanced.tally_eq hfinished]
  · have hsome : ((start initial verdicts workers).run schedule).workers ≠ [] := by
      rw [← List.length_pos_iff, length_workers_run, start, List.length_replicate]
      exact hworkers
    obtain ⟨more, -, hmore⟩ := exists_finished hsome
    exact ⟨more, hmore⟩

/-- Two workers that take turns over two verdicts, while the total and one of the counters wrap
around. -/
theorem counters_add_up_wrapped :
    Reachable ⟨18446744073709551615, 5, 18446744073709551615, 0⟩
        [.confirmed "0xA", .mismatch "0xB" "0xC"] 2 ⟨⟨1, 6, 0, 0⟩, [], [none, none]⟩ ∧
      (1 : UInt64) - 18446744073709551615 = (6 - 5) + (0 - 18446744073709551615) + (0 - 0) + 0 ∧
      ((⟨1, 6, 0, 0⟩ : Tally).ofKind .mismatch).toNat = (18446744073709551615 + 1) % 2 ^ 64 := by
  have hreach : Reachable ⟨18446744073709551615, 5, 18446744073709551615, 0⟩
      [.confirmed "0xA", .mismatch "0xB" "0xC"] 2 ⟨⟨1, 6, 0, 0⟩, [], [none, none]⟩ :=
    ⟨[⟨0, 1⟩, ⟨1, 0⟩, ⟨0, 0⟩, ⟨1, 0⟩], by decide⟩
  obtain ⟨hahead, hend, -⟩ := counters_add_up hreach
  obtain ⟨-, hkinds, -⟩ := hend (by decide)
  exact ⟨hreach, hahead, hkinds .mismatch⟩

end Counting

end Attest.Batch
