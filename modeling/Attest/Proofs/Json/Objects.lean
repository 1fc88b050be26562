import Mathlib
import Attest.Proofs.Json.Numbers
import Attest.Proofs.Json.Writing

/-!
# Written objects

The grammar of objects that state their members: each value is a string that spells a text, or a
whole number in decimal. What is written for some members on one line is such an object.

The main statement is `Grammar.object_compact`.
-/

namespace Attest.Json.Grammar

/-! ## Values and members -/

/-- The ways to write a value. -/
inductive Spelled : Value → List Char → Prop where
  | text {value : String} {w : List Char} (h : Spells value.toList w) :
      Spelled (.text value) ('"' :: w ++ ['"'])
  | number {w : List Char} (h : Whole w) : Spelled (.number (Nat.ofDigitChars 10 w 0)) w

/-- The ways to write a member: its name, a colon and its value. -/
inductive Entry : String × Value → List Char → Prop where
  | intro {name : String} {value : Value} {w before after v : List Char}
      (hname : Spells name.toList w) (hbefore : Space before) (hafter : Space after)
      (hv : Spelled value v) : Entry (name, value) ('"' :: w ++ '"' :: before ++ ':' :: after ++ v)

/-- An object that states some members, at least one, in their order. -/
inductive Object (members : Members) : List Char → Prop where
  | intro {w : List Char} (h : Listing Entry members w) : Object members ('\x7b' :: w ++ ['\x7d'])

/-! ## What is written -/

theorem spelled_written (value : Value) : Spelled value value.written := by
  cases value with
  | text value => exact .text (spells_flatMap_escape value.toList)
  | number value =>
    have hspelled := Spelled.number (whole_decimal value)
    rw [(Text.isDecimal_decimal value).spells] at hspelled
    exact hspelled

/-- Each member is written as one. -/
theorem forall₂_entry (members : Members) : List.Forall₂ Entry members (written [] members) := by
  rw [written, List.forall₂_map_right_iff, List.forall₂_same]
  rintro ⟨name, value⟩ -
  have hentry := Entry.intro (spells_flatMap_escape name.toList) .nil .nil (spelled_written value)
  simpa [string] using hentry

/-- **What is written on one line is an object** that states the members. -/
theorem object_compact {members : Members} (h : members ≠ []) :
    Object members (compact members).toList := by
  have hobject := Object.intro (Listing.of_intercalate .nil .nil (forall₂_entry members) h)
  rw [List.nil_append, List.append_nil] at hobject
  rw [compact, String.toList_ofList]
  exact hobject

end Attest.Json.Grammar
