/-!
# Repetition by doubling

`repeated` combines many copies of one element by halving their number: the copies are counted in
binary, so a number of 256 bits takes at most 512 combinations. Powers and multiples of curve
points are both computed this way.

The main statement is `repeated_eq`: for any function that turns the addition of natural numbers
into `combine`, the result is the value of that function at the number of copies.
-/

namespace Attest

variable {α : Type}

/-- Combines `count` copies of `x`, starting from the neutral element; only the lowest `width` bits
of `count` matter. -/
def repeated (combine : α → α → α) (neutral x : α) : (width count : Nat) → α
  | 0, _ => neutral
  | width + 1, count =>
    let half := repeated combine neutral x width (count / 2)
    let whole := combine half half
    if count % 2 = 1 then combine whole x else whole

/-- A function that respects combining respects repetition. -/
theorem repeated_map {β : Type} {combine : α → α → α} {combine' : β → β → β} {f : α → β}
    (h : ∀ a b, f (combine a b) = combine' (f a) (f b)) (neutral x : α) :
    ∀ width count : Nat,
      f (repeated combine neutral x width count) =
        repeated combine' (f neutral) (f x) width count
  | 0, _ => rfl
  | width + 1, count => by
    rw [repeated, repeated]
    split <;> simp only [h, repeated_map h neutral x width]

/-- **Doubling computes multiples.** Whatever sends `0` to the neutral element, `1` to `x` and
sums to combinations is computed by `repeated` for every count within the width. -/
theorem repeated_eq {combine : α → α → α} {neutral x : α} {multiple : Nat → α}
    (zero : multiple 0 = neutral) (one : multiple 1 = x)
    (add : ∀ a b, multiple (a + b) = combine (multiple a) (multiple b)) :
    ∀ {width count : Nat}, count < Nat.pow 2 width →
      repeated combine neutral x width count = multiple count
  | 0, count, h => by
    obtain rfl : count = 0 := Nat.lt_one_iff.1 h
    exact zero.symm
  | width + 1, count, h => by
    have hwidth : Nat.pow 2 (width + 1) = Nat.pow 2 width * 2 := rfl
    have hhalf : repeated combine neutral x width (count / 2) = multiple (count / 2) :=
      repeated_eq zero one add (by omega)
    rw [repeated, hhalf, ← add, ← one, ← add]
    split
    · congr 1
      omega
    · congr 1
      omega

end Attest
