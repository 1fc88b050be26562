import Mathlib
import Attest.Proofs.Batch.Layout

/-!
# Files put after one another

A file that is empty or ends in a line feed can have another one put after it: the lines of the two
are then the lines of the first and those of the second. So the records of the two are read as those
of the first and those of the second, and an error is that of the first, or else that of the second
with its line counted on. The reason is that the error of a file is told by its lines alone, as that
of the first line that something is wrong with.

The main statements are `lines_append_of_closed`, `read_eq_error_iff`, `read_append` and, for all that
follows from them, `read_concatenation`.
-/

namespace Attest.Batch

variable {file after : Bytes} {records : List Record} {error : ReadError}

/-! ## The lines -/

/-- Whether what is put after a file begins on a line of its own. -/
def Closed (file : Bytes) : Prop := file = [] ∨ ∃ init, file = init ++ [0x0a]

/-- The lines up to a line feed do not depend on what comes after it. -/
theorem linesFrom_concat_append (taken init rest : Bytes) :
    linesFrom taken (init ++ 0x0a :: rest) =
      linesFrom taken (init ++ [0x0a]) ++ linesFrom [] rest := by
  -- what is taken of a line grows with every byte and is empty again after a line feed
  induction init generalizing taken with
  | nil => rfl
  | cons byte init ih =>
    rw [List.cons_append, List.cons_append, linesFrom, linesFrom]
    split_ifs
    · rw [ih, List.cons_append]
    · exact ih (byte :: taken)

theorem length_linesFrom_concat (taken init : Bytes) :
    (linesFrom taken (init ++ [0x0a])).length = init.count 0x0a + 1 := by
  induction init generalizing taken with
  | nil => rfl
  | cons byte init ih =>
    rw [List.cons_append, linesFrom]
    split_ifs with hfeed
    · rw [List.length_cons, ih, hfeed, List.count_cons_self]
    · rw [ih, List.count_cons_of_ne hfeed]

/-- **The lines of two files** that are put together are those of the one and those of the other. -/
theorem lines_append_of_closed (h : Closed file) (after : Bytes) :
    lines (file ++ after) = lines file ++ lines after := by
  rcases h with rfl | ⟨init, rfl⟩
  · rfl
  · rw [List.append_assoc]
    exact linesFrom_concat_append [] init after

/-- A file has as many lines as line feeds. -/
theorem length_lines_of_closed (h : Closed file) : (lines file).length = file.count 0x0a := by
  rcases h with rfl | ⟨init, rfl⟩
  · rfl
  · rw [lines, length_linesFrom_concat, List.count_append, List.count_singleton_self]

/-! ## What a file is read as -/

theorem exists_holds_of_forall₂ {entries : List (Option Record)} {given : List Bytes}
    (h : List.Forall₂ Holds entries given) : ∀ line ∈ given, ∃ entry, Holds entry line := by
  induction h with
  | nil => exact List.forall_mem_nil _
  | cons hline _ ih => exact List.forall_mem_cons.2 ⟨⟨_, hline⟩, ih⟩

/-- **A file can be read** exactly if every line of it holds something. -/
theorem read_eq_ok_iff : read file = .ok records ↔
    ∃ entries, List.Forall₂ Holds entries (lines file) ∧ entries.reduceOption = records := by
  constructor
  · intro h
    rcases holds_or_first_faulty (lines file) with ⟨entries, hentries⟩ |
      ⟨before, line, rest, error, hlines, hbefore, hfaulty⟩
    · rw [read_of_holds hentries] at h
      exact ⟨entries, hentries, Except.ok.inj h⟩
    · rw [read_of_faulty hlines hbefore hfaulty] at h
      cases h
  · rintro ⟨entries, hentries, rfl⟩
    exact read_of_holds hentries

/-- Whether an error is that of the first line of a file that something is wrong with. -/
def FirstFault (file : Bytes) (error : ReadError) : Prop :=
  ∃ before line rest, lines file = before ++ line :: rest ∧
    (∀ earlier ∈ before, ∃ entry, Holds entry earlier) ∧ Faulty (before.length + 1) error line

/-- **The error of a file** is that of the first line that something is wrong with. -/
theorem read_eq_error_iff : read file = .error error ↔ FirstFault file error := by
  constructor
  · -- there is at most one such error, since it is the one that reading ends with
    intro h
    rcases holds_or_first_faulty (lines file) with ⟨entries, hentries⟩ |
      ⟨before, line, rest, error', hlines, hbefore, hfaulty⟩
    · rw [read_of_holds hentries] at h
      cases h
    · rw [read_of_faulty hlines hbefore hfaulty] at h
      obtain rfl := Except.error.inj h
      exact ⟨before, line, rest, hlines, hbefore, hfaulty⟩
  · rintro ⟨before, line, rest, hlines, hbefore, hfaulty⟩
    exact read_of_faulty hlines hbefore hfaulty

/-- An error as it is told where some lines come before those that it was told of. -/
def ReadError.later (lines : ℕ) : ReadError → ReadError
  | .notText => .notText
  | .badRecord line cause => .badRecord (line + lines) cause

theorem Faulty.later {number : ℕ} {line : Bytes} (h : Faulty number error line) (count : ℕ) :
    Faulty (number + count) (error.later count) line := by
  cases h with
  | notText h => exact .notText h
  | badRecord hblank hcause => exact .badRecord hblank hcause

/-! ## Two files -/

/-- What is wrong with the first file is wrong with both together. -/
theorem FirstFault.append_right (h : FirstFault file error) (hclosed : Closed file)
    (after : Bytes) : FirstFault (file ++ after) error := by
  obtain ⟨before, line, rest, hlines, hbefore, hfaulty⟩ := h
  refine ⟨before, line, rest ++ lines after, ?_, hbefore, hfaulty⟩
  rw [lines_append_of_closed hclosed, hlines, List.append_assoc, List.cons_append]

/-- What is wrong with the second file is wrong with both together, if nothing is with the first. -/
theorem FirstFault.append_left (h : FirstFault after error) (hclosed : Closed file)
    (hread : read file = .ok records) :
    FirstFault (file ++ after) (error.later (file.count 0x0a)) := by
  obtain ⟨before, line, rest, hlines, hbefore, hfaulty⟩ := h
  obtain ⟨entries, hentries, -⟩ := read_eq_ok_iff.1 hread
  refine ⟨lines file ++ before, line, rest, ?_, ?_, ?_⟩
  · rw [lines_append_of_closed hclosed, hlines, List.append_assoc]
  · intro earlier hearlier
    rcases List.mem_append.1 hearlier with hfirst | hsecond
    · exact exists_holds_of_forall₂ hentries earlier hfirst
    · exact hbefore earlier hsecond
  · have hnumber : (lines file ++ before).length + 1 = before.length + 1 + file.count 0x0a := by
      rw [List.length_append, length_lines_of_closed hclosed]
      omega
    rw [hnumber]
    exact hfaulty.later _

/-- **Files are read one after the other**: records are put together, and errors told with the lines
counted on. -/
theorem read_append (hclosed : Closed file) (after : Bytes) :
    read (file ++ after) = (read file).bind fun records =>
      ((read after).map (records ++ ·)).mapError (.later (file.count 0x0a)) := by
  cases hfile : read file with
  | error error =>
    exact read_eq_error_iff.2 ((read_eq_error_iff.1 hfile).append_right hclosed after)
  | ok records =>
    cases hafter : read after with
    | error error =>
      exact read_eq_error_iff.2 ((read_eq_error_iff.1 hafter).append_left hclosed hfile)
    | ok more =>
      obtain ⟨entries, hentries, rfl⟩ := read_eq_ok_iff.1 hfile
      obtain ⟨entries', hentries', rfl⟩ := read_eq_ok_iff.1 hafter
      refine read_eq_ok_iff.2 ⟨entries ++ entries', ?_, List.reduceOption_append _ _⟩
      rw [lines_append_of_closed hclosed]
      exact List.rel_append hentries hentries'

/-! ## The errors of a file -/

/-- A record is refused in the first line that is neither blank nor a record. -/
theorem read_eq_badRecord_iff {number : ℕ} {cause : Record.ReadError} :
    read file = .error (.badRecord number cause) ↔
      ∃ before text rest, lines file = before ++ Text.bytes text :: rest ∧
        number = before.length + 1 ∧ (∀ earlier ∈ before, ∃ entry, Holds entry earlier) ∧
        (∃ c ∈ text.toList, ¬Text.isBlank c) ∧ Record.read text = .error cause := by
  rw [read_eq_error_iff]
  constructor
  · rintro ⟨before, line, rest, hlines, hbefore, hfaulty⟩
    cases hfaulty with
    | @badRecord text cause hblank hcause =>
      exact ⟨before, text, rest, hlines, rfl, hbefore, hblank, hcause⟩
  · rintro ⟨before, text, rest, hlines, rfl, hbefore, hblank, hcause⟩
    exact ⟨before, Text.bytes text, rest, hlines, hbefore, .badRecord hblank hcause⟩

/-- Invalid UTF-8 is told of the first line that is neither blank nor a record. -/
theorem read_eq_notText_iff : read file = .error .notText ↔
    ∃ before line rest, lines file = before ++ line :: rest ∧
      (∀ earlier ∈ before, ∃ entry, Holds entry earlier) ∧ ∀ text, Text.bytes text ≠ line := by
  rw [read_eq_error_iff]
  constructor
  · rintro ⟨before, line, rest, hlines, hbefore, hfaulty⟩
    cases hfaulty with
    | notText htext => exact ⟨before, line, rest, hlines, hbefore, htext⟩
  · rintro ⟨before, line, rest, hlines, hbefore, htext⟩
    exact ⟨before, line, rest, hlines, hbefore, .notText htext⟩

/-- **Reading goes through two files one after the other**, where the first is empty or ends in a
line feed. An error of the first is the error of both. Otherwise its records stand in front of those
of the second, and an error of the second is told with its line counted on by the line feeds of the
first. The line that is told of is the first one that is neither blank nor a record, counted from 1
and with the blank lines; and invalid UTF-8 is told of only if nothing is wrong with the lines
before it. -/
theorem read_concatenation (file : Bytes) (hend : file = [] ∨ ∃ init, file = init ++ [0x0a])
    (after : Bytes) :
    (∀ error, read file = .error error → read (file ++ after) = .error error) ∧
    (∀ records, read file = .ok records →
      (∀ more, read after = .ok more → read (file ++ after) = .ok (records ++ more)) ∧
      (∀ number cause, read after = .error (.badRecord number cause) →
        read (file ++ after) = .error (.badRecord (number + file.count 0x0a) cause)) ∧
      (read after = .error .notText → read (file ++ after) = .error .notText)) ∧
    ∀ whole : Bytes,
      (∀ number cause, read whole = .error (.badRecord number cause) ↔
        ∃ before text rest, lines whole = before ++ Text.bytes text :: rest ∧
          number = before.length + 1 ∧ (∀ earlier ∈ before, ∃ entry, Holds entry earlier) ∧
          (∃ c ∈ text.toList, ¬Text.isBlank c) ∧ Record.read text = .error cause) ∧
      (read whole = .error .notText ↔
        ∃ before line rest, lines whole = before ++ line :: rest ∧
          (∀ earlier ∈ before, ∃ entry, Holds entry earlier) ∧
          ∀ text, Text.bytes text ≠ line) := by
  have hread := read_append hend after
  refine ⟨?_, ?_, fun whole => ⟨fun _ _ => read_eq_badRecord_iff, read_eq_notText_iff⟩⟩
  · intro error herror
    rw [hread, herror]
    rfl
  · intro records hrecords
    rw [hread, hrecords]
    refine ⟨?_, ?_, ?_⟩
    · intro more hmore
      rw [hmore]
      rfl
    · intro number cause hcause
      rw [hcause]
      rfl
    · intro htext
      rw [htext]
      rfl

/-- A file with a record and a blank line. -/
def finished : Bytes :=
  Text.utf8 ((Json.compact twoLines.members).toList ++ ['\r', '\n'] ++ ([] ++ ['\n'] ++ []))

theorem read_finished : read finished = .ok [twoLines] := by
  have hrecord : LineOf (some twoLines) ([] ++ (Json.compact twoLines.members).toList ++ []) :=
    .record (List.forall_mem_nil _) (List.forall_mem_nil _)
  rw [List.nil_append, List.append_nil] at hrecord
  have hblank : LineOf none [] := .blank (List.forall_mem_nil _)
  exact read_laidOut (.line hrecord (.inr rfl) (.line hblank (.inl rfl) .nil))

/-- A record without members is told of before the invalid UTF-8 that comes after it. -/
theorem read_concatenation_finished :
    (∃ init, finished = init ++ [0x0a]) ∧
      read (finished ++ (Text.bytes "\x7b\x7d\n" ++ [0xff])) =
        .error (.badRecord 3 (.missing .address)) := by
  have hend : ∃ init, finished = init ++ [0x0a] := by
    refine ⟨Text.utf8 ((Json.compact twoLines.members).toList ++ ['\r', '\n']), ?_⟩
    rw [finished, Text.utf8_append]
    rfl
  have hfeeds : finished.count 0x0a = 2 := by decide +kernel
  have hread := read_concatenation finished (.inr hend) (Text.bytes "\x7b\x7d\n" ++ [0xff])
  have hbad := (hread.2.1 _ read_finished).2.1 1 (.missing .address) rfl
  rw [hfeeds] at hbad
  exact ⟨hend, hbad⟩

end Attest.Batch
