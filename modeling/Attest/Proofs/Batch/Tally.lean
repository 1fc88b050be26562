import Mathlib
import Attest.Batch.Tally

/-!
# What the counters show

A tally is known by its total and by its counter of each kind. The two steps of counting move one of
these each, so that counting some verdicts adds their number to the total and the number of those
of each kind to its counter, modulo `2 ^ 64`.

The main statements are `Tally.total_foldl_count` and `Tally.ofKind_foldl_count`.
-/

namespace Attest

/-- Whether a verdict is of a kind. -/
def Verdict.isOf : Verdict → Kind → Bool
  | confirmed _, .confirmed => true
  | mismatch _ _, .mismatch => true
  | unrecoverable _, .unrecoverable => true
  | _, _ => false

/-- A verdict is counted under the kind that it is of. -/
theorem Verdict.decide_kind_eq (verdict : Verdict) (kind : Kind) :
    decide (verdict.kind = kind) = verdict.isOf kind := by
  cases verdict <;> cases kind <;> rfl

namespace Batch.Tally

variable {tally tally' : Tally} {kind kind' : Verdict.Kind}

theorem ext_ofKind (htotal : tally.total = tally'.total)
    (hkind : ∀ kind, tally.ofKind kind = tally'.ofKind kind) : tally = tally' := by
  obtain ⟨total, confirmed, mismatched, unrecoverable⟩ := tally
  obtain ⟨total', confirmed', mismatched', unrecoverable'⟩ := tally'
  have hconfirmed := hkind .confirmed
  have hmismatched := hkind .mismatch
  have hunrecoverable := hkind .unrecoverable
  simp only [ofKind] at htotal hconfirmed hmismatched hunrecoverable
  rw [htotal, hconfirmed, hmismatched, hunrecoverable]

@[simp] theorem total_zero : zero.total = 0 := rfl

@[simp] theorem ofKind_zero (kind : Verdict.Kind) : zero.ofKind kind = 0 := by
  cases kind <;> rfl

@[simp] theorem total_countTotal (tally : Tally) :
    tally.countTotal.total = tally.total + 1 := rfl

@[simp] theorem ofKind_countTotal (tally : Tally) (kind : Verdict.Kind) :
    tally.countTotal.ofKind kind = tally.ofKind kind := by
  cases kind <;> rfl

@[simp] theorem total_countKind (tally : Tally) (kind : Verdict.Kind) :
    (tally.countKind kind).total = tally.total := by
  cases kind <;> rfl

/-- Counting under a kind moves the counter of that kind only. -/
@[simp] theorem ofKind_countKind (tally : Tally) (kind kind' : Verdict.Kind) :
    (tally.countKind kind).ofKind kind' = tally.ofKind kind' + if kind = kind' then 1 else 0 := by
  cases kind <;> cases kind' <;> simp [countKind, ofKind]

/-- The total grows by the number of verdicts that are counted. -/
theorem total_foldl_count (tally : Tally) (kinds : List Verdict.Kind) :
    (kinds.foldl count tally).total = tally.total + UInt64.ofNat kinds.length := by
  induction kinds generalizing tally with
  | nil => simp
  | cons kind kinds ih =>
    rw [List.foldl_cons, ih, count, total_countKind, total_countTotal, List.length_cons,
      UInt64.ofNat_add, UInt64.add_assoc, UInt64.add_comm 1]
    rfl

/-- The counter of a kind grows by the number of verdicts of that kind. -/
theorem ofKind_foldl_count (tally : Tally) (kinds : List Verdict.Kind) (kind : Verdict.Kind) :
    (kinds.foldl count tally).ofKind kind =
      tally.ofKind kind + UInt64.ofNat (kinds.count kind) := by
  induction kinds generalizing tally with
  | nil => simp
  | cons first kinds ih =>
    rw [List.foldl_cons, ih, count, ofKind_countKind, ofKind_countTotal, List.count_cons]
    by_cases h : first = kind
    · simp only [h, beq_self_eq_true, if_true, UInt64.ofNat_add, UInt64.add_assoc]
      rw [UInt64.add_comm 1]
      rfl
    · simp [h]

/-- Every verdict is of one of the three kinds. -/
theorem length_eq_add_countP_kind (verdicts : List Verdict) :
    verdicts.length = verdicts.countP (·.kind = .confirmed) +
      verdicts.countP (·.kind = .mismatch) + verdicts.countP (·.kind = .unrecoverable) := by
  induction verdicts with
  | nil => rfl
  | cons verdict verdicts ih =>
    simp only [List.length_cons, List.countP_cons, ih]
    cases verdict.kind <;> simp <;> omega

end Batch.Tally

end Attest
