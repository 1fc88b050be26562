import Attest.Bytes

/-!
# Blank characters

The characters with the Unicode property White_Space, and trimming by them.
-/

namespace Attest.Text

/-- Whether a character has the property White_Space. -/
def isBlank (c : Char) : Bool :=
  let code := c.toNat
  (0x09 ≤ code && code ≤ 0x0d) || code = 0x20 || code = 0x85 || code = 0xa0 || code = 0x1680 ||
    (0x2000 ≤ code && code ≤ 0x200a) || code = 0x2028 || code = 0x2029 || code = 0x202f ||
    code = 0x205f || code = 0x3000

/-- Some characters without the blank ones at both ends. -/
def trim (chars : List Char) : List Char :=
  ((chars.dropWhile isBlank).reverse.dropWhile isBlank).reverse

theorem dropWhile_isBlank_eq_nil_iff {chars : List Char} :
    chars.dropWhile isBlank = [] ↔ ∀ c ∈ chars, isBlank c := by
  induction chars with
  | nil => simp
  | cons c chars ih => by_cases h : isBlank c <;> simp [h, ih]

/-- Trimming leaves nothing exactly where every character is blank. -/
theorem trim_eq_nil_iff {chars : List Char} : trim chars = [] ↔ ∀ c ∈ chars, isBlank c := by
  rw [trim, List.reverse_eq_nil_iff, dropWhile_isBlank_eq_nil_iff]
  constructor
  · intro h
    by_cases hnil : chars.dropWhile isBlank = []
    · exact dropWhile_isBlank_eq_nil_iff.1 hnil
    · have hhead := List.head_dropWhile_not isBlank hnil
      rw [h _ (List.mem_reverse.2 (List.head_mem hnil))] at hhead
      cases hhead
  · intro h c hc
    exact h c ((List.dropWhile_sublist isBlank).subset (List.mem_reverse.1 hc))

end Attest.Text
