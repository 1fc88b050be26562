import Mathlib
import Attest.Proofs.Json.Writing
import Attest.Proofs.Record.Reading

/-!
# Written records read back

Both written forms of a record are objects with its members, so reading gives the record back,
whatever its strings are.

The main statement is `round_trip`.
-/

namespace Attest.Record

open Json Json.Grammar

/-- The members of a record by their fields. -/
def entries (record : Record) : List (Field × String) :=
  [(.address, record.address), (.message, record.message), (.signature, record.signature),
    (.version, record.version)]

theorem fills_entries (record : Record) : Fills record.entries record := .inl (.refl _)

theorem quoted_string (value : String) : Quoted value (string value) :=
  .intro (spells_flatMap_escape value.toList)

/-- Each member is written as one. -/
theorem forall₂_written (record : Record) {space : List Char} (h : Space space) :
    List.Forall₂ Member (record.entries.map some) (written space record.members) := by
  have hmember : ∀ entry : Field × String,
      Member (some entry) (string entry.1.name ++ ':' :: space ++ string entry.2) := by
    intro ⟨field, value⟩
    have hmember := Member.known (spells_flatMap_escape field.name.toList) .nil h
      (quoted_string value)
    simpa [string] using hmember
  exact .cons (hmember _) (.cons (hmember _) (.cons (hmember _) (.cons (hmember _) .nil)))

/-- Its members between braces, with the same space between them, are an object. -/
theorem objectText_written (record : Record) {before space after : List Char}
    (hbefore : Space before) (hspace : Space space) (hafter : Space after) :
    ObjectText (record.entries.map some) ('\x7b' :: (before ++
      List.intercalate (',' :: before) (written space record.members) ++ after) ++ ['\x7d']) := by
  have hlisting := Listing.of_intercalate hbefore hafter (forall₂_written record hspace)
    (List.cons_ne_nil _ _)
  have htext := ObjectText.intro .nil hlisting .nil
  rw [List.append_nil] at htext
  exact htext

theorem objectText_compact (record : Record) :
    ObjectText (record.entries.map some) (compact record.members).toList := by
  have htext := objectText_written record .nil .nil .nil
  rw [List.append_nil] at htext
  rw [compact, String.toList_ofList]
  exact htext

theorem objectText_pretty (record : Record) :
    ObjectText (record.entries.map some) (pretty record.members).toList := by
  have hbefore : Space ['\n', ' ', ' '] := by simp [Space]
  have hspace : Space [' '] := by simp [Space]
  have hafter : Space ['\n'] := by simp [Space]
  have htext := objectText_written record hbefore hspace hafter
  have hchars : (pretty record.members).toList = "\x7b\n  ".toList ++
      List.intercalate ",\n  ".toList (written [' '] record.members) ++ "\n\x7d".toList :=
    String.toList_ofList
  rw [hchars]
  simpa using htext

/-- Whatever object of its members is written for a record, it is read as the record. -/
theorem read_of_objectText {record : Record} {text : String}
    (h : ObjectText (record.entries.map some) text.toList) : read text = .ok record :=
  (readChars_objectText h).2 record.fills_entries

/-- **Both written forms of a record read back as the record**, so neither is a form of another one;
and the form on one line stays on it. -/
theorem round_trip (record : Record) :
    read (compact record.members) = .ok record ∧ read (pretty record.members) = .ok record ∧
      (∀ c ∈ (compact record.members).toList, ' ' ≤ c) ∧
      ∀ other : Record, (compact record.members = compact other.members → record = other) ∧
        (pretty record.members = pretty other.members → record = other) := by
  have hcompact : ∀ record : Record, read (compact record.members) = .ok record :=
    fun record => read_of_objectText record.objectText_compact
  have hpretty : ∀ record : Record, read (pretty record.members) = .ok record :=
    fun record => read_of_objectText record.objectText_pretty
  refine ⟨hcompact record, hpretty record, space_le_of_mem_compact, fun other => ⟨?_, ?_⟩⟩
  · intro h
    exact Except.ok.inj ((hcompact record).symm.trans (h ▸ hcompact other))
  · intro h
    exact Except.ok.inj ((hpretty record).symm.trans (h ▸ hpretty other))

end Attest.Record
