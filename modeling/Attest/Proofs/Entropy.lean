import Mathlib
import Attest.Entropy

/-!
# What is drawn

Blocks are passed over until there is one that can be a secret. So what is drawn is the first such
block, and what is left are the blocks after it; and where there is none, nothing is left.

The main statements are `Entropy.draw_eq_some_iff` and `Entropy.draw_eq_none_iff`.
-/

namespace Attest

open Curve

/-- A block can be a secret exactly if it spells a scalar other than zero. -/
theorem isSecret_iff {block : Octets 32} :
    isSecret block = true ↔ 0 < block.toNat ∧ block.toNat < order := by
  rw [isSecret]
  constructor
  · intro h
    by_contra hnot
    rw [Scalar.ofNat?_eq_none hnot] at h
    cases h
  · intro h
    rw [Scalar.ofNat?_eq_some_reduce h]
    rfl

theorem isSecret_eq_false_iff {block : Octets 32} :
    isSecret block = false ↔ ¬(0 < block.toNat ∧ block.toNat < order) := by
  rw [← Bool.not_eq_true, isSecret_iff]

namespace Entropy

variable {entropy rest skipped : Entropy} {block : Octets 32}

/-- The blocks that cannot be a secret are passed over. -/
theorem draw_append (h : ∀ block ∈ skipped, isSecret block = false) (entropy : Entropy) :
    draw (skipped ++ entropy) = draw entropy := by
  induction skipped with
  | nil => rfl
  | cons block skipped ih =>
    obtain ⟨hblock, hskipped⟩ := List.forall_mem_cons.1 h
    rw [List.cons_append, draw, hblock]
    exact ih hskipped

/-- **The first block that can be a secret is drawn**, and the blocks after it are left. -/
theorem draw_eq_some_iff : entropy.draw = (some block, rest) ↔
    isSecret block = true ∧ ∃ skipped, entropy = skipped ++ block :: rest ∧
      ∀ other ∈ skipped, isSecret other = false := by
  constructor
  · intro h
    induction entropy with
    | nil => cases h
    | cons first entropy ih =>
      rw [draw] at h
      split at h
      case isTrue hfirst =>
        cases h
        exact ⟨hfirst, [], rfl, nofun⟩
      case isFalse hfirst =>
        obtain ⟨hblock, skipped, rfl, hskipped⟩ := ih h
        refine ⟨hblock, first :: skipped, rfl, ?_⟩
        exact List.forall_mem_cons.2 ⟨Bool.eq_false_of_not_eq_true hfirst, hskipped⟩
  · rintro ⟨hblock, skipped, rfl, hskipped⟩
    rw [draw_append hskipped, draw, if_pos hblock]

/-- **Nothing is drawn** exactly if no block can be a secret, and then all of them are used up. -/
theorem draw_eq_none_iff : entropy.draw = (none, rest) ↔
    rest = [] ∧ ∀ block ∈ entropy, isSecret block = false := by
  constructor
  · intro h
    induction entropy with
    | nil =>
      cases h
      exact ⟨rfl, nofun⟩
    | cons first entropy ih =>
      rw [draw] at h
      split at h
      case isTrue => cases h
      case isFalse hfirst =>
        obtain ⟨hrest, hentropy⟩ := ih h
        exact ⟨hrest, List.forall_mem_cons.2 ⟨Bool.eq_false_of_not_eq_true hfirst, hentropy⟩⟩
  · rintro ⟨rfl, hentropy⟩
    have hdraw := draw_append hentropy []
    rwa [List.append_nil] at hdraw

/-- A block is drawn as long as there is one that can be a secret, and one of these is used up. -/
theorem exists_draw (h : 0 < entropy.countP isSecret) :
    ∃ secret rest, entropy.draw = (some secret, rest) ∧ isSecret secret = true ∧
      entropy.countP isSecret = rest.countP isSecret + 1 := by
  rcases hdraw : entropy.draw with ⟨_ | secret, rest⟩
  · obtain ⟨block, hblock, hsecret⟩ := List.countP_pos_iff.1 h
    rw [(draw_eq_none_iff.1 hdraw).2 block hblock] at hsecret
    cases hsecret
  · obtain ⟨hsecret, skipped, rfl, hskipped⟩ := draw_eq_some_iff.1 hdraw
    refine ⟨secret, rest, rfl, hsecret, ?_⟩
    have hnone : skipped.countP isSecret = 0 := by
      rw [List.countP_eq_zero]
      intro block hblock
      rw [hskipped block hblock]
      exact Bool.false_ne_true
    rw [List.countP_append, hnone, List.countP_cons_of_pos hsecret, Nat.zero_add]

end Entropy

end Attest
