import Mathlib
import Attest.Json.Skipping

/-!
# The grammar of JSON

What a JSON text is, said by rules and not by a reader: which characters may be written for a
space, a string, a number and a value. A string has two grammars. `Spells` tells which text a
string spells, and only what spells a text of characters fits it. `Loose` tells what may stand
between two quotes at all, where half a pair may also stand alone; it is what a string has to be
that nobody looks at.

Where entries of one kind stand between commas, `Listing` says so for any kind of entry.
-/

namespace Attest.Json

/-- The character that opens a container. -/
def Container.opening : Container → Char
  | .array => '['
  | .object => '\x7b'

namespace Grammar

/-- Any number of blanks, tabs and line ends. -/
def Space (written : List Char) : Prop := ∀ c ∈ written, c ∈ [' ', '\t', '\n', '\r']

theorem Space.nil : Space [] := nofun

theorem Space.append {w v : List Char} (hw : Space w) (hv : Space v) : Space (w ++ v) :=
  fun c hc => (List.mem_append.1 hc).elim (hw c) (hv c)

/-! ## Strings -/

/-- A hexadecimal digit of either case and its value. -/
def HexDigit (c : Char) (value : ℕ) : Prop :=
  value < 16 ∧ (c = Nat.digitChar value ∨ c = (Nat.digitChar value).toUpper)

instance (c : Char) (value : ℕ) : Decidable (HexDigit c value) :=
  inferInstanceAs (Decidable (_ ∧ _))

/-- Four hexadecimal digits and the 16-bit unit that they spell. -/
inductive UnitDigits : ℕ → List Char → Prop where
  | intro {a b c d : Char} {i j k l : ℕ} (ha : HexDigit a i) (hb : HexDigit b j)
      (hc : HexDigit c k) (hd : HexDigit d l) :
      UnitDigits (((i * 16 + j) * 16 + k) * 16 + l) [a, b, c, d]

/-- The letters that stand for a character after a backslash. -/
def shortEscapes : List (Char × Char) :=
  [('"', '"'), ('\\', '\\'), ('/', '/'), ('b', '\x08'), ('f', '\x0c'), ('n', '\n'), ('r', '\r'),
    ('t', '\t')]

/-- Whether a character may stand for itself inside a string. -/
def IsPlain (c : Char) : Prop := c ≠ '"' ∧ c ≠ '\\' ∧ ' ' ≤ c

instance (c : Char) : Decidable (IsPlain c) := inferInstanceAs (Decidable (_ ∧ _))

/-- The ways to write a character inside a string. -/
inductive Spelling : Char → List Char → Prop where
  /-- the character itself -/
  | plain {c : Char} (h : IsPlain c) : Spelling c [c]
  /-- a backslash and a letter -/
  | short {letter c : Char} (h : (letter, c) ∈ shortEscapes) : Spelling c ['\\', letter]
  /-- its number, if that is a single unit -/
  | unit {c : Char} {unit : List Char} (h : UnitDigits c.toNat unit) :
      Spelling c ('\\' :: 'u' :: unit)
  /-- the two halves of its number, if that is larger -/
  | pair {c : Char} {lead trail : List Char} (h : 0x10000 ≤ c.toNat)
      (hlead : UnitDigits (0xd800 + (c.toNat - 0x10000) / 0x400) lead)
      (htrail : UnitDigits (0xdc00 + (c.toNat - 0x10000) % 0x400) trail) :
      Spelling c ('\\' :: 'u' :: lead ++ '\\' :: 'u' :: trail)

/-- The ways to write a text inside a string. -/
inductive Spells : (text written : List Char) → Prop where
  | nil : Spells [] []
  | cons {c : Char} {text w v : List Char} (hc : Spelling c w) (htext : Spells text v) :
      Spells (c :: text) (w ++ v)

/-! No character below a space stands in a spelling, so a string stays on its line. -/

theorem HexDigit.space_le {c : Char} {value : ℕ} (h : HexDigit c value) : ' ' ≤ c := by
  have hall : ∀ v < 16, ' ' ≤ Nat.digitChar v ∧ ' ' ≤ (Nat.digitChar v).toUpper := by decide
  obtain ⟨hlt, rfl | rfl⟩ := h
  · exact (hall value hlt).1
  · exact (hall value hlt).2

theorem UnitDigits.space_le {value : ℕ} {unit : List Char} (h : UnitDigits value unit) :
    ∀ c ∈ unit, ' ' ≤ c := by
  obtain ⟨ha, hb, hc, hd⟩ := h
  simp [ha.space_le, hb.space_le, hc.space_le, hd.space_le]

theorem Spelling.space_le {c : Char} {w : List Char} (h : Spelling c w) : ∀ d ∈ w, ' ' ≤ d := by
  have hmark : ' ' ≤ '\\' ∧ ' ' ≤ 'u' := by decide
  cases h with
  | plain h => exact List.forall_mem_singleton.2 h.2.2
  | short h =>
    have hall : ∀ escape ∈ shortEscapes, ' ' ≤ escape.1 := by decide
    simp [hmark.1, hall _ h]
  | unit h =>
    rw [List.forall_mem_cons, List.forall_mem_cons]
    exact ⟨hmark.1, hmark.2, h.space_le⟩
  | pair _ hlead htrail =>
    rw [List.forall_mem_append, List.forall_mem_cons, List.forall_mem_cons, List.forall_mem_cons,
      List.forall_mem_cons]
    exact ⟨⟨hmark.1, hmark.2, hlead.space_le⟩, hmark.1, hmark.2, htrail.space_le⟩

theorem Spells.space_le {text w : List Char} (h : Spells text w) : ∀ c ∈ w, ' ' ≤ c := by
  induction h with
  | nil => exact List.forall_mem_nil _
  | cons hc _ ih => exact List.forall_mem_append.2 ⟨hc.space_le, ih⟩

/-- What may stand inside a string whose text nobody looks at. -/
inductive Loose : List Char → Prop where
  | nil : Loose []
  | plain {c : Char} {w : List Char} (h : IsPlain c) (hw : Loose w) : Loose (c :: w)
  | short {letter c : Char} {w : List Char} (h : (letter, c) ∈ shortEscapes) (hw : Loose w) :
      Loose ('\\' :: letter :: w)
  | unit {value : ℕ} {unit w : List Char} (h : UnitDigits value unit) (hw : Loose w) :
      Loose ('\\' :: 'u' :: unit ++ w)

/-! ## Numbers -/

/-- Decimal digits, at least one. -/
def Digits (written : List Char) : Prop := written ≠ [] ∧ ∀ c ∈ written, c.isDigit

/-- The digits in front of the point: zero, or digits of which the first is not zero. -/
def Whole (written : List Char) : Prop :=
  Digits written ∧ (written.head? = some '0' → written = ['0'])

/-- A point and digits, or nothing. -/
inductive Fraction : List Char → Prop where
  | none : Fraction []
  | some {digits : List Char} (h : Digits digits) : Fraction ('.' :: digits)

/-- A sign, or nothing. -/
def Sign (written : List Char) : Prop := written ∈ [[], ['-'], ['+']]

/-- The letter of an exponent, a sign and digits, or nothing. -/
inductive Exponent : List Char → Prop where
  | none : Exponent []
  | some {letter : Char} {sign digits : List Char} (hletter : letter = 'e' ∨ letter = 'E')
      (hsign : Sign sign) (h : Digits digits) : Exponent (letter :: sign ++ digits)

/-- A number. -/
inductive Number : List Char → Prop where
  | intro {minus whole fraction exponent : List Char} (hminus : minus = [] ∨ minus = ['-'])
      (hwhole : Whole whole) (hfraction : Fraction fraction) (hexponent : Exponent exponent) :
      Number (minus ++ whole ++ fraction ++ exponent)

/-! The same rules once more, with the parts that a number is taken apart into. -/

inductive FractionOf : Option (List Char) → List Char → Prop where
  | none : FractionOf none []
  | some {digits : List Char} (h : Digits digits) : FractionOf (some digits) ('.' :: digits)

/-- A sign, or nothing, and whether it is a minus. -/
def SignOf (negative : Bool) (written : List Char) : Prop :=
  written ∈ if negative then [['-']] else [[], ['+']]

inductive ExponentOf : Option (Bool × List Char) → List Char → Prop where
  | none : ExponentOf none []
  | some {negative : Bool} {letter : Char} {sign digits : List Char}
      (hletter : letter = 'e' ∨ letter = 'E') (hsign : SignOf negative sign) (h : Digits digits) :
      ExponentOf (some (negative, digits)) (letter :: sign ++ digits)

/-- A number with the given parts. -/
inductive NumberOf : Numeral → List Char → Prop where
  | intro {n : Numeral} {fraction exponent : List Char} (hwhole : Whole n.whole)
      (hfraction : FractionOf n.fraction fraction) (hexponent : ExponentOf n.exponent exponent) :
      NumberOf n ((if n.negative then ['-'] else []) ++ n.whole ++ fraction ++ exponent)

theorem Fraction.exists_parts {w : List Char} (h : Fraction w) :
    ∃ fraction, FractionOf fraction w := by
  cases h with
  | none => exact ⟨_, .none⟩
  | some h => exact ⟨_, .some h⟩

theorem Sign.exists_parts {w : List Char} (h : Sign w) : ∃ negative, SignOf negative w := by
  simp only [Sign, List.mem_cons, List.not_mem_nil, or_false] at h
  obtain rfl | rfl | rfl := h
  · exact ⟨false, by simp [SignOf]⟩
  · exact ⟨true, by simp [SignOf]⟩
  · exact ⟨false, by simp [SignOf]⟩

theorem Exponent.exists_parts {w : List Char} (h : Exponent w) :
    ∃ exponent, ExponentOf exponent w := by
  cases h with
  | none => exact ⟨_, .none⟩
  | some hletter hsign h =>
    obtain ⟨negative, hsign⟩ := hsign.exists_parts
    exact ⟨_, .some hletter hsign h⟩

/-- Every number has parts. -/
theorem Number.exists_parts {w : List Char} (h : Number w) : ∃ n, NumberOf n w := by
  obtain ⟨hminus, hwhole, hfraction, hexponent⟩ := h
  obtain ⟨fraction, hfraction⟩ := hfraction.exists_parts
  obtain ⟨exponent, hexponent⟩ := hexponent.exists_parts
  obtain rfl | rfl := hminus
  · exact ⟨_, @NumberOf.intro ⟨false, _, fraction, exponent⟩ _ _ hwhole hfraction hexponent⟩
  · exact ⟨_, @NumberOf.intro ⟨true, _, fraction, exponent⟩ _ _ hwhole hfraction hexponent⟩

/-! ## Values -/

/-- The words that are values. -/
def words : List String := ["null", "true", "false"]

/-- A value that is no container. -/
inductive Scalar : List Char → Prop where
  | word {word : String} (h : word ∈ words) : Scalar word.toList
  | string {w : List Char} (h : Loose w) : Scalar ('"' :: w ++ ['"'])
  | number {w : List Char} (h : Number w) : Scalar w

/-- What names an item: nothing in an array, a string and a colon in an object. -/
inductive Label : Container → List Char → Prop where
  | array : Label .array []
  | object {name space : List Char} (hname : Loose name) (hspace : Space space) :
      Label .object ('"' :: name ++ '"' :: space ++ [':'])

mutual

/-- A value of any kind, nested to any depth. -/
inductive WellFormed : List Char → Prop where
  | scalar {w : List Char} (h : Scalar w) : WellFormed w
  | empty (container : Container) {w : List Char} (h : Space w) :
      WellFormed (container.opening :: w ++ [container.closing])
  | items (container : Container) {w : List Char} (h : Items container w) :
      WellFormed (container.opening :: w ++ [container.closing])

/-- An item of a container, with the space around it. -/
inductive Item : Container → List Char → Prop where
  | intro {container : Container} {before label between w after : List Char}
      (hbefore : Space before) (hlabel : Label container label) (hbetween : Space between)
      (hw : WellFormed w) (hafter : Space after) :
      Item container (before ++ label ++ between ++ w ++ after)

/-- Items with commas between them, at least one. -/
inductive Items : Container → List Char → Prop where
  | last {container : Container} {w : List Char} (hw : Item container w) : Items container w
  | more {container : Container} {w v : List Char} (hw : Item container w)
      (hv : Items container v) : Items container (w ++ ',' :: v)

end

/-- What may follow a value: the end, a space, a comma or the end of a container. A number is read
as far as it goes, so it is told apart from what follows only there. -/
def Ends (rest : List Char) : Prop :=
  ∀ c ∈ rest.head?, c ∈ [' ', '\t', '\n', '\r', ',', ']', '\x7d']

theorem Space.ends {space rest : List Char} (h : Space space) (hrest : Ends rest) :
    Ends (space ++ rest) := by
  cases space with
  | nil => exact hrest
  | cons c space =>
    rintro d ⟨⟩
    have hmem := h c List.mem_cons_self
    simp only [List.mem_cons, List.not_mem_nil, or_false] at hmem ⊢
    tauto

theorem ends_closing (container : Container) {rest : List Char} :
    Ends (container.closing :: rest) := by
  rintro d ⟨⟩
  cases container <;> decide

theorem ends_comma {rest : List Char} : Ends (',' :: rest) := by
  rintro d ⟨⟩
  decide

/-- Where a reader stands in front of some items: right there, or after another item and in front
of a comma. -/
inductive Before (items : List Char) : (first : Bool) → List Char → Prop where
  | first : Before items true items
  | comma {space : List Char} (h : Space space) : Before items false (space ++ ',' :: items)

/-- What stands behind the items stands behind all of it. -/
theorem Before.exists_append {items rest chars : List Char} {first : Bool}
    (h : Before (items ++ rest) first chars) : ∃ w, Before items first w ∧ chars = w ++ rest := by
  cases h with
  | first => exact ⟨items, .first, rfl⟩
  | comma hspace => exact ⟨_, .comma hspace, by rw [List.append_assoc, List.cons_append]⟩

/-! ## Listings -/

section Listing

variable {α : Type} {Entry : α → List Char → Prop}

/-- Entries of one kind with commas between them and space around each, at least one. -/
inductive Listing (Entry : α → List Char → Prop) : List α → List Char → Prop where
  | last {a : α} {before w after : List Char} (hbefore : Space before) (hw : Entry a w)
      (hafter : Space after) : Listing Entry [a] (before ++ w ++ after)
  | more {a : α} {as : List α} {before w after v : List Char} (hbefore : Space before)
      (hw : Entry a w) (hafter : Space after) (hv : Listing Entry as v) :
      Listing Entry (a :: as) (before ++ w ++ after ++ ',' :: v)

/-- There is a comma less than there are entries. -/
theorem Listing.length_le {as : List α} {w : List Char} (h : Listing Entry as w) :
    as.length ≤ w.length + 1 := by
  induction h with
  | last => exact Nat.le_add_left 1 _
  | more _ _ _ _ ih =>
    rw [List.length_append, List.length_cons, List.length_cons]
    omega

/-- What may stand in front of the end of a listing, at its start or after an entry. -/
inductive Remaining (Entry : α → List Char → Prop) :
    (first : Bool) → List α → List Char → Prop where
  | nil {first : Bool} {w : List Char} (h : Space w) : Remaining Entry first [] w
  | listing {as : List α} {w v : List Char} {first : Bool} (h : Listing Entry as w)
      (hv : Before w first v) : Remaining Entry first as v

theorem Remaining.cons {a : α} {as : List α} {before w v : List Char} (hbefore : Space before)
    (hw : Entry a w) (h : Remaining Entry false as v) :
    Listing Entry (a :: as) (before ++ w ++ v) := by
  cases h with
  | nil h => exact .last hbefore hw h
  | listing h hv =>
    cases hv with
    | comma hspace =>
      rw [← List.append_assoc]
      exact .more hbefore hw hspace h

end Listing

end Grammar

end Attest.Json
