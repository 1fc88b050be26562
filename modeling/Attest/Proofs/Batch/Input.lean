import Mathlib
import Attest.Batch.Input
import Attest.Proofs.Batch.Lines
import Attest.Proofs.Record.Reading

/-!
# Reading a batch

Every line of a file holds nothing or a record (`Holds`), or there is something wrong with it
(`Faulty`). Reading goes through the lines in order: lines that hold something are taken, and the
first one that does not is the error, told with its number. So a file is read as the records that
its lines hold, or not at all.

The main statements are `readLines_append`, `read_of_holds` and `read_of_faulty`.
-/

namespace Attest

/-- A text that states a record is not blank. -/
theorem Record.exists_not_isBlank_of_written {record : Record} {text : List Char}
    (h : Record.Written record text) : ∃ c ∈ text, ¬Text.isBlank c := by
  cases h with
  | object htext =>
    cases htext
    exact ⟨'\x7b', by simp, by decide⟩
  | array htext =>
    cases htext
    exact ⟨'[', by simp, by decide⟩

namespace Batch

variable {number : ℕ} {line : Bytes} {entry : Option Record} {error : ReadError}

/-! ## One line -/

/-- What a line holds: nothing if it is a blank text, or else the record that it states. -/
inductive Holds : Option Record → Bytes → Prop where
  | blank {text : String} (h : ∀ c ∈ text.toList, Text.isBlank c) : Holds none (Text.bytes text)
  | record {text : String} {record : Record} (h : Record.Written record text.toList) :
      Holds (some record) (Text.bytes text)

/-- What is wrong with the line of a number: it is no text, or a text that is neither blank nor a
record, for a cause that reading it as a record gives. -/
inductive Faulty (number : ℕ) : ReadError → Bytes → Prop where
  | notText {line : Bytes} (h : ∀ text, Text.bytes text ≠ line) : Faulty number .notText line
  | badRecord {text : String} {cause : Record.ReadError}
      (hblank : ∃ c ∈ text.toList, ¬Text.isBlank c) (hcause : Record.read text = .error cause) :
      Faulty number (.badRecord number cause) (Text.bytes text)

/-- How a line of text is read. -/
theorem readLine_bytes (number : ℕ) (text : String) :
    readLine number (Text.bytes text) =
      if Text.trim text.toList = [] then .ok none
      else ((Record.read text).map some).mapError (.badRecord number) := by
  rw [readLine, Text.ofUtf8?_bytes]
  dsimp only
  cases Record.read text <;> rfl

/-- A text that is not blank is read as a record. -/
theorem readLine_of_not_isBlank (number : ℕ) {text : String}
    (h : ∃ c ∈ text.toList, ¬Text.isBlank c) :
    readLine number (Text.bytes text) =
      ((Record.read text).map some).mapError (.badRecord number) := by
  have hblank : Text.trim text.toList ≠ [] := by
    rw [ne_eq, Text.trim_eq_nil_iff]
    intro hall
    obtain ⟨c, hc, hnot⟩ := h
    exact hnot (hall c hc)
  rw [readLine_bytes, if_neg hblank]

theorem readLine_of_holds (h : Holds entry line) (number : ℕ) :
    readLine number line = .ok entry := by
  cases h with
  | blank h => rw [readLine_bytes, if_pos (Text.trim_eq_nil_iff.2 h)]
  | record h =>
    rw [readLine_of_not_isBlank number (Record.exists_not_isBlank_of_written h), Record.read,
      Record.readChars_eq_ok_iff.2 h]
    rfl

theorem readLine_of_faulty (h : Faulty number error line) :
    readLine number line = .error error := by
  cases h with
  | notText h =>
    have hnone : Text.ofUtf8? line = none := by
      rw [Option.eq_none_iff_forall_ne_some]
      intro text htext
      exact h text (Text.ofUtf8?_eq_some_iff.1 htext)
    rw [readLine, hnone]
  | badRecord hblank hcause =>
    rw [readLine_of_not_isBlank number hblank, hcause]
    rfl

/-- A line holds something, or something is wrong with it. -/
theorem holds_or_faulty (number : ℕ) (line : Bytes) :
    (∃ entry, Holds entry line) ∨ ∃ error, Faulty number error line := by
  by_cases htext : ∃ text, Text.bytes text = line
  case neg => exact .inr ⟨_, .notText (not_exists.1 htext)⟩
  obtain ⟨text, rfl⟩ := htext
  by_cases hblank : ∀ c ∈ text.toList, Text.isBlank c
  case pos => exact .inl ⟨_, .blank hblank⟩
  simp only [not_forall, exists_prop] at hblank
  cases hread : Record.read text with
  | ok record => exact .inl ⟨_, .record (Record.readChars_eq_ok_iff.1 hread)⟩
  | error cause => exact .inr ⟨_, .badRecord hblank hread⟩

theorem Holds.unique {entry' : Option Record} (h : Holds entry line) (h' : Holds entry' line) :
    entry = entry' :=
  Except.ok.inj ((readLine_of_holds h 0).symm.trans (readLine_of_holds h' 0))

/-! ## All lines -/

variable {entries : List (Option Record)} {before after : List Bytes} {file : Bytes}

/-- What some lines hold can be listed, if each holds something. -/
theorem exists_forall₂_holds {given : List Bytes} (h : ∀ line ∈ given, ∃ entry, Holds entry line) :
    ∃ entries, List.Forall₂ Holds entries given := by
  induction given with
  | nil => exact ⟨[], .nil⟩
  | cons line given ih =>
    obtain ⟨⟨entry, hentry⟩, hgiven⟩ := List.forall_mem_cons.1 h
    obtain ⟨entries, hentries⟩ := ih hgiven
    exact ⟨entry :: entries, .cons hentry hentries⟩

/-- Of lines that do not all hold something, there is a first one. -/
theorem exists_first_of_not_holds {given : List Bytes}
    (h : ¬∀ line ∈ given, ∃ entry, Holds entry line) :
    ∃ before line after, given = before ++ line :: after ∧
      (∀ earlier ∈ before, ∃ entry, Holds entry earlier) ∧ ¬∃ entry, Holds entry line := by
  induction given with
  | nil => exact absurd (List.forall_mem_nil _) h
  | cons line given ih =>
    by_cases hline : ∃ entry, Holds entry line
    -- the first line is the one, or it comes in front of the one among the rest
    case neg => exact ⟨[], line, given, rfl, List.forall_mem_nil _, hline⟩
    have hgiven : ¬∀ later ∈ given, ∃ entry, Holds entry later :=
      fun hall => h (List.forall_mem_cons.2 ⟨hline, hall⟩)
    obtain ⟨before, first, after, rfl, hbefore, hfirst⟩ := ih hgiven
    exact ⟨line :: before, first, after, rfl, List.forall_mem_cons.2 ⟨hline, hbefore⟩, hfirst⟩

/-- Either all lines of a file hold something, or there is a first one that something is wrong
with. -/
theorem holds_or_first_faulty (given : List Bytes) :
    (∃ entries, List.Forall₂ Holds entries given) ∨
      ∃ before line after error, given = before ++ line :: after ∧
        (∀ earlier ∈ before, ∃ entry, Holds entry earlier) ∧
        Faulty (before.length + 1) error line := by
  by_cases hall : ∀ line ∈ given, ∃ entry, Holds entry line
  case pos => exact .inl (exists_forall₂_holds hall)
  obtain ⟨before, line, after, hgiven, hbefore, hline⟩ := exists_first_of_not_holds hall
  obtain ⟨error, hfaulty⟩ := (holds_or_faulty (before.length + 1) line).resolve_left hline
  exact .inr ⟨before, line, after, error, hgiven, hbefore, hfaulty⟩

/-- **Lines that hold something are taken**, one by one, and the number of the next line grows by
theirs. -/
theorem readLines_append (h : List.Forall₂ Holds entries before) (number : ℕ) (done : List Record)
    (rest : List Bytes) :
    readLines number done (before ++ rest) =
      readLines (number + before.length) (entries.reduceOption.reverse ++ done) rest := by
  induction h generalizing number done with
  | nil => rfl
  | @cons entry line entries before hline _ ih =>
    have hnumber : number + (line :: before).length = number + 1 + before.length := by
      rw [List.length_cons]
      omega
    rw [List.cons_append, readLines, readLine_of_holds hline number, hnumber]
    cases entry with
    | none => exact ih (number + 1) done
    | some record =>
      rw [List.reduceOption_cons_of_some, List.reverse_cons, List.append_assoc]
      exact ih (number + 1) (record :: done)

/-- **A file is read as the records that its lines hold.** -/
theorem read_of_holds (h : List.Forall₂ Holds entries (lines file)) :
    read file = .ok entries.reduceOption := by
  have hread := readLines_append h 1 [] []
  rw [List.append_nil, List.append_nil, readLines, List.reverse_reverse] at hread
  exact hread

/-- **The first line that something is wrong with is the error**, with its number counted from 1. -/
theorem read_of_faulty (hlines : lines file = before ++ line :: after)
    (hbefore : ∀ earlier ∈ before, ∃ entry, Holds entry earlier)
    (h : Faulty (before.length + 1) error line) : read file = .error error := by
  obtain ⟨entries, hentries⟩ := exists_forall₂_holds hbefore
  rw [read, hlines, readLines_append hentries, readLines, Nat.add_comm, readLine_of_faulty h]

end Batch

end Attest
