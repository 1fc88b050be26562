import Mathlib
import Attest.Json.Writing
import Attest.Proofs.Json.Grammar

/-!
# What is written is JSON

Whatever a character is, what is written for it is one of its spellings, and none of it is a control
character. So every string is written as a string that spells it, and an object on one line stays on
its line.

The main statements are `spells_flatMap_escape`, `Grammar.Listing.of_intercalate` and
`space_le_of_mem_compact`.
-/

namespace Attest.Json

open Grammar

/-! ## Strings -/

theorem unitDigits_control {c : Char} (h : c < ' ') :
    UnitDigits c.toNat ['0', '0', Nat.digitChar (c.toNat / 16), Nat.digitChar (c.toNat % 16)] := by
  have hlt : c.toNat < 32 := h
  have hzero : HexDigit '0' 0 := by decide
  have hsplit : ((0 * 16 + 0) * 16 + c.toNat / 16) * 16 + c.toNat % 16 = c.toNat := by omega
  have hdigits := UnitDigits.intro hzero hzero
    (show HexDigit (Nat.digitChar (c.toNat / 16)) (c.toNat / 16) from ⟨by omega, .inl rfl⟩)
    (show HexDigit (Nat.digitChar (c.toNat % 16)) (c.toNat % 16) from ⟨by omega, .inl rfl⟩)
  rw [hsplit] at hdigits
  exact hdigits

/-- What is written for a character spells it. -/
theorem spelling_escape (c : Char) : Spelling c (escape c) := by
  rw [escape]
  split_ifs with hquote hbackslash hb hf hn hr ht hcontrol
  · rw [hquote]
    exact .short (by decide)
  · rw [hbackslash]
    exact .short (by decide)
  · rw [hb]
    exact .short (by decide)
  · rw [hf]
    exact .short (by decide)
  · rw [hn]
    exact .short (by decide)
  · rw [hr]
    exact .short (by decide)
  · rw [ht]
    exact .short (by decide)
  · exact .unit (unitDigits_control hcontrol)
  · exact .plain ⟨hquote, hbackslash, not_lt.1 hcontrol⟩

/-- What is written for a text spells it. -/
theorem spells_flatMap_escape (text : List Char) : Spells text (text.flatMap escape) := by
  induction text with
  | nil => exact .nil
  | cons c text ih =>
    rw [List.flatMap_cons]
    exact .cons (spelling_escape c) ih

/-! ## Objects -/

/-- Entries with commas and the same space between them are a listing. -/
theorem Grammar.Listing.of_intercalate {α : Type} {Entry : α → List Char → Prop}
    {before after : List Char} (hbefore : Space before) (hafter : Space after) {as : List α}
    {ws : List (List Char)} (h : List.Forall₂ Entry as ws) (hne : as ≠ []) :
    Listing Entry as (before ++ List.intercalate (',' :: before) ws ++ after) := by
  induction h with
  | nil => exact absurd rfl hne
  | @cons a w as ws hw h ih =>
    cases h with
    | nil =>
      rw [List.intercalate_singleton]
      exact .last hbefore hw hafter
    | @cons b v bs vs hv h =>
      have hrest := ih (List.cons_ne_nil b bs)
      have hmore := Listing.more hbefore hw .nil hrest
      rw [List.intercalate_cons_cons]
      simpa using hmore

/-! ## Control characters -/

theorem space_le_of_mem_string {value : String} : ∀ c ∈ string value, ' ' ≤ c := by
  rw [string, List.cons_append, List.forall_mem_cons, List.forall_mem_append]
  exact ⟨by decide, (spells_flatMap_escape value.toList).space_le,
    List.forall_mem_singleton.2 (by decide)⟩

theorem space_le_of_isDigit {c : Char} (h : c.isDigit = true) : ' ' ≤ c := by
  rw [Char.isDigit, Bool.and_eq_true, decide_eq_true_eq] at h
  have hzero : ' ' ≤ '0' := by decide
  exact hzero.trans h.1

theorem space_le_of_mem_value {value : Value} : ∀ c ∈ value.written, ' ' ≤ c := by
  cases value with
  | text value => exact space_le_of_mem_string
  | number value =>
    exact fun c hc => space_le_of_isDigit (Nat.isDigit_of_mem_toDigits (by decide) (by decide) hc)

theorem forall_mem_intercalate {p : Char → Prop} {separator : List Char} {ws : List (List Char)}
    (hseparator : ∀ c ∈ separator, p c) (h : ∀ w ∈ ws, ∀ c ∈ w, p c) :
    ∀ c ∈ List.intercalate separator ws, p c := by
  induction ws with
  | nil => exact List.forall_mem_nil p
  | cons w ws ih =>
    obtain ⟨hw, hws⟩ := List.forall_mem_cons.1 h
    cases ws with
    | nil =>
      rw [List.intercalate_singleton]
      exact hw
    | cons v vs =>
      rw [List.intercalate_cons_cons, List.forall_mem_append, List.forall_mem_append]
      exact ⟨⟨hw, hseparator⟩, ih hws⟩

/-- **An object on one line has no control character in it.** -/
theorem space_le_of_mem_compact {members : Members} :
    ∀ c ∈ (compact members).toList, ' ' ≤ c := by
  have hmember : ∀ w ∈ written [] members, ∀ c ∈ w, ' ' ≤ c := by
    rw [written, List.forall_mem_map]
    rintro ⟨name, value⟩ -
    dsimp only
    rw [List.forall_mem_append, List.forall_mem_append]
    exact ⟨⟨space_le_of_mem_string, List.forall_mem_singleton.2 (by decide)⟩,
      space_le_of_mem_value⟩
  rw [compact, String.toList_ofList, List.cons_append, List.forall_mem_cons, List.forall_mem_append]
  exact ⟨by decide, forall_mem_intercalate (List.forall_mem_singleton.2 (by decide)) hmember,
    List.forall_mem_singleton.2 (by decide)⟩

end Attest.Json
