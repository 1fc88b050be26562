import Mathlib
import Attest.Proofs.Batch.Input
import Attest.Proofs.Record.Writing

/-!
# Files of records

A file with one record on each line can be laid out in many ways: with space beside the records,
with blank lines between them, with either kind of line end, and without one at its end. However
it is laid out, it is read as its records in their order. What the records say does not matter,
since a record that is written on one line has no character in it that could end the line.

The main statement is `read_laidOut`.
-/

namespace Attest

namespace Record

open Json.Grammar

/-- Space may be put around an object. -/
theorem ObjectText.pad {members : List (Option (Field × String))} {text before after : List Char}
    (h : ObjectText members text) (hbefore : Space before) (hafter : Space after) :
    ObjectText members (before ++ text ++ after) := by
  obtain ⟨hfront, hw, hback⟩ := h
  have htext := ObjectText.intro (hbefore.append hfront) hw (hback.append hafter)
  simpa using htext

/-- A record that is written on one line states itself, with space around it or not. -/
theorem written_compact (record : Record) {before after : List Char} (hbefore : Space before)
    (hafter : Space after) :
    Written record (before ++ (Json.compact record.members).toList ++ after) :=
  .object (record.objectText_compact.pad hbefore hafter) record.fills_entries

end Record

namespace Batch

open Json.Grammar

variable {entry : Option Record} {records : List Record} {w text : List Char}

/-! ## Lines -/

/-- A line as it can be laid out: blank, or a record with blanks, tabs or carriage returns around
it. -/
inductive LineOf : Option Record → List Char → Prop where
  | blank {w : List Char} (h : ∀ c ∈ w, Text.isBlank c ∧ c ≠ '\n') : LineOf none w
  | record {record : Record} {before after : List Char}
      (hbefore : ∀ c ∈ before, c ∈ [' ', '\t', '\r'])
      (hafter : ∀ c ∈ after, c ∈ [' ', '\t', '\r']) :
      LineOf (some record) (before ++ (Json.compact record.members).toList ++ after)

theorem space_of_padding (h : ∀ c ∈ w, c ∈ [' ', '\t', '\r']) : Space w := by
  intro c hc
  have hmem := h c hc
  simp only [List.mem_cons, List.not_mem_nil, or_false] at hmem ⊢
  tauto

/-- A line has no line feed in it. -/
theorem LineOf.not_mem (h : LineOf entry w) : '\n' ∉ w := by
  cases h with
  | blank h => exact fun hmem => (h _ hmem).2 rfl
  | @record record before after hbefore hafter =>
    have hpadding : '\n' ∉ [' ', '\t', '\r'] := by decide
    rw [List.mem_append, List.mem_append, not_or, not_or]
    refine ⟨⟨fun hmem => hpadding (hbefore _ hmem), fun hmem => ?_⟩,
      fun hmem => hpadding (hafter _ hmem)⟩
    exact absurd (Json.space_le_of_mem_compact _ hmem) (by decide)

/-- A line holds what is laid out on it. -/
theorem LineOf.holds (h : LineOf entry w) : Holds entry (Text.utf8 w) := by
  cases h with
  | blank h =>
    rw [← Text.bytes_ofList]
    refine .blank ?_
    rw [String.toList_ofList]
    exact fun c hc => (h c hc).1
  | @record record before after hbefore hafter =>
    rw [← Text.bytes_ofList]
    refine .record ?_
    rw [String.toList_ofList]
    exact record.written_compact (space_of_padding hbefore) (space_of_padding hafter)

/-- A carriage return at the end of a line can be left out. -/
theorem LineOf.of_concat (h : LineOf entry (w ++ ['\r'])) : LineOf entry w := by
  generalize hv : w ++ ['\r'] = v at h
  cases h with
  | blank h =>
    refine .blank fun c hc => h c ?_
    rw [← hv]
    exact List.mem_append_left _ hc
  | @record record before after hbefore hafter =>
    rcases List.eq_nil_or_concat' after with rfl | ⟨init, last, rfl⟩
    · -- the object ends in a brace
      exfalso
      rw [List.append_nil, Json.compact, String.toList_ofList, ← List.append_assoc] at hv
      have hlast := (List.append_inj' hv rfl).2
      exact absurd hlast (by decide)
    · rw [← List.append_assoc] at hv
      obtain ⟨rfl, -⟩ := List.append_inj' hv rfl
      exact .record hbefore fun c hc => hafter c (List.mem_append_left _ hc)

/-- So a line holds what is laid out on it also where its last character is taken for a part of the
line end. -/
theorem LineOf.holds_withoutReturn (h : LineOf entry w) :
    Holds entry (withoutReturn (Text.utf8 w)) := by
  by_cases hreturn : ∃ init, Text.utf8 w = init ++ [0x0d]
  · obtain ⟨init, hinit⟩ := hreturn
    obtain ⟨v, rfl⟩ := Text.exists_concat_of_utf8 (c := '\r') (by decide) hinit
    have hbytes : Text.utf8 (v ++ ['\r']) = Text.utf8 v ++ [0x0d] := Text.utf8_append v ['\r']
    rw [hbytes, withoutReturn_concat]
    exact h.of_concat.holds
  · rw [withoutReturn_of_ne (not_exists.1 hreturn)]
    exact h.holds

/-! ## Files -/

/-- A file as it can be laid out: lines with their line ends, the last of which may be missing. -/
inductive LaidOut : List Record → List Char → Prop where
  | nil : LaidOut [] []
  | last {entry : Option Record} {w : List Char} (h : LineOf entry w) : LaidOut entry.toList w
  | line {entry : Option Record} {records : List Record} {w ending rest : List Char}
      (h : LineOf entry w) (hending : ending = ['\n'] ∨ ending = ['\r', '\n'])
      (hrest : LaidOut records rest) : LaidOut (entry.toList ++ records) (w ++ ending ++ rest)

/-- The first line of a file, whatever its line end is. -/
theorem LineOf.exists_lines (h : LineOf entry w) {ending : List Char}
    (hending : ending = ['\n'] ∨ ending = ['\r', '\n']) (rest : List Char) :
    ∃ line, lines (Text.utf8 (w ++ ending ++ rest)) = line :: lines (Text.utf8 rest) ∧
      Holds entry line := by
  have hline : ∀ v, '\n' ∉ v → lines (Text.utf8 (v ++ '\n' :: rest)) =
      withoutReturn (Text.utf8 v) :: lines (Text.utf8 rest) := by
    intro v hv
    rw [Text.utf8_append]
    exact lines_append (mt (Text.mem_utf8_iff (c := '\n') (by decide)).1 hv) _
  rcases hending with rfl | rfl
  · have htext : w ++ ['\n'] ++ rest = w ++ '\n' :: rest := by simp
    rw [htext]
    exact ⟨_, hline w h.not_mem, h.holds_withoutReturn⟩
  · have htext : w ++ ['\r', '\n'] ++ rest = w ++ ['\r'] ++ '\n' :: rest := by simp
    have hmem : '\n' ∉ w ++ ['\r'] := by
      rw [List.mem_append, not_or]
      exact ⟨h.not_mem, by decide⟩
    have hbytes : Text.utf8 (w ++ ['\r']) = Text.utf8 w ++ [0x0d] := Text.utf8_append w ['\r']
    rw [htext]
    refine ⟨_, hline _ hmem, ?_⟩
    rw [hbytes, withoutReturn_concat]
    exact h.holds

/-- The lines of a file hold its records. -/
theorem LaidOut.exists_entries (h : LaidOut records text) :
    ∃ entries, List.Forall₂ Holds entries (lines (Text.utf8 text)) ∧
      entries.reduceOption = records := by
  induction h with
  | nil => exact ⟨[], .nil, rfl⟩
  | @last entry w h =>
    by_cases hempty : w = []
    · subst hempty
      obtain rfl := h.holds.unique (LineOf.blank (List.forall_mem_nil _)).holds
      exact ⟨[], .nil, rfl⟩
    · have hlines := lines_of_not_mem (mt (Text.mem_utf8_iff (c := '\n') (by decide)).1 h.not_mem)
        (mt Text.utf8_eq_nil_iff.1 hempty)
      refine ⟨[entry], ?_, by cases entry <;> rfl⟩
      rw [hlines]
      exact .cons h.holds .nil
  | @line entry records w ending rest h hending _ ih =>
    obtain ⟨entries, hentries, rfl⟩ := ih
    obtain ⟨line, hlines, hholds⟩ := h.exists_lines hending rest
    refine ⟨entry :: entries, ?_, ?_⟩
    · rw [hlines]
      exact .cons hholds hentries
    · cases entry <;> rfl

/-- **A file of records is read as these records**, in their order and nothing else, however it is
laid out. -/
theorem read_laidOut {records : List Record} {text : List Char} (h : LaidOut records text) :
    read (Text.utf8 text) = .ok records := by
  obtain ⟨entries, hentries, rfl⟩ := h.exists_entries
  exact read_of_holds hentries

/-- A record with line breaks in its message. -/
def twoLines : Record := ⟨"0xA", "a\nb\u2028c", "\"", "2"⟩

/-- A blank line, a record with space around it, and a last record without a line end. -/
def mixed : List Char :=
  ['\u3000', '\r'] ++ ['\r', '\n'] ++
    ([' '] ++ (Json.compact twoLines.members).toList ++ ['\t', '\r'] ++ ['\n'] ++
      ([] ++ (Json.compact (Record.members ⟨"", "", "", ""⟩)).toList ++ []))

theorem laidOut_mixed : LaidOut [twoLines, ⟨"", "", "", ""⟩] mixed := by
  have hblank : LineOf none ['\u3000', '\r'] := .blank (by simp [Text.isBlank])
  have hfirst : LineOf (some twoLines)
      ([' '] ++ (Json.compact twoLines.members).toList ++ ['\t', '\r']) :=
    .record (by simp) (by simp)
  have hsecond : LineOf (some ⟨"", "", "", ""⟩)
      ([] ++ (Json.compact (Record.members ⟨"", "", "", ""⟩)).toList ++ []) :=
    .record (by simp) (by simp)
  exact .line hblank (.inr rfl) (.line hfirst (.inl rfl) (.last hsecond))

theorem read_laidOut_mixed :
    LaidOut [twoLines, ⟨"", "", "", ""⟩] mixed ∧
      read (Text.utf8 mixed) = .ok [twoLines, ⟨"", "", "", ""⟩] :=
  ⟨laidOut_mixed, read_laidOut laidOut_mixed⟩

end Batch

end Attest
