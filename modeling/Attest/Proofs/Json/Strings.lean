import Mathlib
import Attest.Proofs.Json.Grammar

/-!
# Reading strings

The two readers of strings take exactly what their grammars allow: `stringTail` a string that
spells a text, which it returns, and `skipStringTail` a string that is loosely well formed.

The main statements are `stringTail_eq_ok_iff` and `skipStringTail_eq_ok_iff`.
-/

namespace Attest

open Json.Grammar

/-! ## Units -/

/-- A character has a value exactly if it is a digit with this value. -/
theorem Hex.value?_eq_some_iff {c : Char} {value : ℕ} :
    Hex.value? c = some value ↔ HexDigit c value := by
  refine ⟨fun h => ?_, ?_⟩
  · have hall : ∀ n < 128, ∀ v ∈ Hex.value? (Char.ofNat n), HexDigit (Char.ofNat n) v := by decide
    have hlt : c.toNat < 128 := by
      by_contra hge
      have hlarge : ∀ d : Char, d.toNat < 128 → ¬c ≤ d :=
        fun d hd hle => hge (Nat.lt_of_le_of_lt hle hd)
      rw [Hex.value?, if_neg fun h => hlarge '9' (by decide) h.2,
        if_neg fun h => hlarge 'f' (by decide) h.2, if_neg fun h => hlarge 'F' (by decide) h.2] at h
      cases h
    rw [← Char.ofNat_toNat c] at h ⊢
    exact hall c.toNat hlt value h
  · have hall : ∀ v < 16, Hex.value? (Nat.digitChar v) = some v ∧
        Hex.value? (Nat.digitChar v).toUpper = some v := by decide
    rintro ⟨hlt, rfl | rfl⟩
    · exact (hall value hlt).1
    · exact (hall value hlt).2

namespace Json

/-- Four digits are a unit exactly if they spell it. -/
theorem unit?_eq_some_iff {a b c d : Char} {value : ℕ} :
    unit? a b c d = some value ↔ UnitDigits value [a, b, c, d] := by
  simp only [unit?, bind, Option.bind_eq_some_iff, Hex.value?_eq_some_iff, pure, Option.some.injEq]
  refine ⟨?_, ?_⟩
  · rintro ⟨i, ha, j, hb, k, hc, l, hd, rfl⟩
    exact .intro ha hb hc hd
  · rintro ⟨ha, hb, hc, hd⟩
    exact ⟨_, ha, _, hb, _, hc, _, hd, rfl⟩

theorem Grammar.UnitDigits.exists_unit? {value : ℕ} {unit : List Char} (h : UnitDigits value unit) :
    ∃ a b c d, unit = [a, b, c, d] ∧ unit? a b c d = some value := by
  cases h with
  | intro ha hb hc hd => exact ⟨_, _, _, _, rfl, unit?_eq_some_iff.2 (.intro ha hb hc hd)⟩

theorem Grammar.UnitDigits.lt {value : ℕ} {unit : List Char} (h : UnitDigits value unit) :
    value < 0x10000 := by
  obtain ⟨ha, hb, hc, hd⟩ := h
  have := ha.1
  have := hb.1
  have := hc.1
  have := hd.1
  omega

/-- A letter stands for a character exactly if the table of short escapes says so. -/
theorem shortEscape?_eq_some_iff {letter c : Char} :
    shortEscape? letter = some c ↔ (letter, c) ∈ shortEscapes := by
  refine ⟨fun h => ?_, fun h => ?_⟩
  · rw [shortEscape?] at h
    split_ifs at h with h₁ h₂ h₃ h₄ h₅ h₆
    · obtain rfl := Option.some.inj h
      rcases h₁ with rfl | rfl | rfl <;> decide
    all_goals
      subst letter
      obtain rfl := Option.some.inj h
      decide
  · have hall : ∀ escape ∈ shortEscapes, shortEscape? escape.1 = some escape.2 := by decide
    exact hall _ h

/-! ## Characters -/

theorem isLead_iff {unit : ℕ} : isLead unit = true ↔ 0xd800 ≤ unit ∧ unit ≤ 0xdbff := by
  simp [isLead]

theorem isTrail_iff {unit : ℕ} : isTrail unit = true ↔ 0xdc00 ≤ unit ∧ unit ≤ 0xdfff := by
  simp [isTrail]

theorem isTrail_of_isLead {unit : ℕ} (h : isLead unit = true) : isTrail unit = false := by
  rw [isLead_iff] at h
  rw [← Bool.not_eq_true, isTrail_iff]
  omega

/-- A unit that is no half is the number of a character. -/
theorem toNat_ofNat_unit {unit : ℕ} (hlt : unit < 0x10000) (hlead : isLead unit = false)
    (htrail : isTrail unit = false) : (Char.ofNat unit).toNat = unit := by
  rw [← Bool.not_eq_true, isLead_iff] at hlead
  rw [← Bool.not_eq_true, isTrail_iff] at htrail
  have hvalid : unit.isValidChar := by
    rw [Nat.isValidChar]
    omega
  rw [Char.toNat_ofNat, if_pos hvalid]

/-- The number of a character is no half. -/
theorem not_half_toNat (c : Char) : isLead c.toNat = false ∧ isTrail c.toNat = false := by
  have hvalid := c.valid
  rw [← Bool.not_eq_true, isLead_iff, ← Bool.not_eq_true, isTrail_iff]
  have : c.toNat < 0xd800 ∨ 0xdfff < c.toNat ∧ c.toNat < 0x110000 := hvalid
  omega

theorem toNat_pair {lead trail : ℕ} (hlead : isLead lead = true) (htrail : isTrail trail = true) :
    (pair lead trail).toNat = 0x10000 + (lead - 0xd800) * 0x400 + (trail - 0xdc00) := by
  rw [isLead_iff] at hlead
  rw [isTrail_iff] at htrail
  have hvalid : (0x10000 + (lead - 0xd800) * 0x400 + (trail - 0xdc00)).isValidChar := by
    rw [Nat.isValidChar]
    omega
  rw [pair, Char.toNat_ofNat, if_pos hvalid]

theorem isLead_of_large {c : Char} (h : 0x10000 ≤ c.toNat) :
    isLead (0xd800 + (c.toNat - 0x10000) / 0x400) = true := by
  have hvalid : c.toNat < 0xd800 ∨ 0xdfff < c.toNat ∧ c.toNat < 0x110000 := c.valid
  rw [isLead_iff]
  omega

theorem isTrail_of_large (c : Char) :
    isTrail (0xdc00 + (c.toNat - 0x10000) % 0x400) = true := by
  rw [isTrail_iff]
  omega

/-- The two halves of a character make it. -/
theorem pair_eq {c : Char} (h : 0x10000 ≤ c.toNat) :
    pair (0xd800 + (c.toNat - 0x10000) / 0x400) (0xdc00 + (c.toNat - 0x10000) % 0x400) = c := by
  rw [← Char.toNat_inj, toNat_pair (isLead_of_large h) (isTrail_of_large c)]
  omega

/-- Two halves spell the character that they make. -/
theorem spelling_pair {lead trail : ℕ} {u v : List Char} (hlead : isLead lead = true)
    (htrail : isTrail trail = true) (hu : UnitDigits lead u) (hv : UnitDigits trail v) :
    Spelling (pair lead trail) ('\\' :: 'u' :: u ++ '\\' :: 'u' :: v) := by
  have hnat := toNat_pair hlead htrail
  rw [isLead_iff] at hlead
  rw [isTrail_iff] at htrail
  refine .pair (by omega) ?_ ?_
  · convert hu using 1
    omega
  · convert hv using 1
    omega

/-! ## Strings that are read -/

section stringTail

variable {c : Char} {done text chars rest w : List Char}

/-- A character that is read, in front of a string that is read. -/
theorem exists_spells_cons (hc : Spelling c w)
    (h : ∃ t v, text = (c :: done).reverse ++ t ∧ Spells t v ∧ chars = v ++ '"' :: rest) :
    ∃ t v, text = done.reverse ++ t ∧ Spells t v ∧ w ++ chars = v ++ '"' :: rest := by
  obtain ⟨t, v, rfl, hspells, rfl⟩ := h
  refine ⟨c :: t, w ++ v, ?_, .cons hc hspells, ?_⟩
  · rw [List.reverse_cons, List.append_assoc, List.singleton_append]
  · rw [List.append_assoc]

/-- What is read as a string spells the text that is returned. -/
theorem exists_of_stringTail (h : stringTail done chars = .ok (text, rest)) :
    ∃ t v, text = done.reverse ++ t ∧ Spells t v ∧ chars = v ++ '"' :: rest := by
  fun_induction stringTail done chars with
  | case2 done chars =>
    obtain ⟨rfl, rfl⟩ := Prod.mk.inj (Except.ok.inj h)
    exact ⟨[], [], (List.append_nil _).symm, .nil, rfl⟩
  | case4 done c chars hquote hspace hbackslash ih =>
    exact exists_spells_cons (.plain ⟨hquote, hbackslash, not_lt.1 hspace⟩) (ih h)
  -- two halves make a character
  | case13 done c hquote hspace hbackslash a₁ a₂ a₃ a₄ lead hlead _ hisLead b u hmark b₁ b₂ b₃ b₄
      chars trail htrail hisTrail ih =>
    obtain rfl := not_not.1 hbackslash
    rw [not_or, not_not, not_not] at hmark
    obtain ⟨rfl, rfl⟩ := hmark
    exact exists_spells_cons (spelling_pair hisLead hisTrail (unit?_eq_some_iff.1 hlead)
      (unit?_eq_some_iff.1 htrail)) (ih h)
  -- a unit that is no half is the number of a character
  | case16 done c hquote hspace hbackslash a₁ a₂ a₃ a₄ chars unit hunit hnotTrail hnotLead ih =>
    obtain rfl := not_not.1 hbackslash
    have hdigits := unit?_eq_some_iff.1 hunit
    rw [Bool.not_eq_true] at hnotTrail hnotLead
    rw [← toNat_ofNat_unit hdigits.lt hnotLead hnotTrail] at hdigits
    exact exists_spells_cons (.unit hdigits) (ih h)
  | case18 done c hquote hspace hbackslash letter chars hu d hd ih =>
    obtain rfl := not_not.1 hbackslash
    exact exists_spells_cons (.short (shortEscape?_eq_some_iff.1 hd)) (ih h)
  | _ => cases h

theorem short_ne {letter : Char} (h : (letter, c) ∈ shortEscapes) : letter ≠ 'u' := by
  have hall : ∀ escape ∈ shortEscapes, escape.1 ≠ 'u' := by decide
  exact hall _ h

/-- A character is read in each of its spellings. -/
theorem stringTail_spelling (hc : Spelling c w) :
    stringTail done (w ++ rest) = stringTail (c :: done) rest := by
  cases hc with
  | plain h =>
    obtain ⟨hquote, hbackslash, hspace⟩ := h
    rw [List.singleton_append, stringTail.eq_def]
    simp only [if_neg hquote, if_neg hspace.not_gt, if_pos hbackslash]
  | @short letter _ h =>
    have hescape := shortEscape?_eq_some_iff.2 h
    change stringTail done ('\\' :: letter :: rest) = _
    rw [stringTail.eq_def]
    simp [short_ne h, hescape]
  | unit h =>
    obtain ⟨a₁, a₂, a₃, a₄, rfl, hunit⟩ := h.exists_unit?
    obtain ⟨hlead, htrail⟩ := not_half_toNat c
    change stringTail done ('\\' :: 'u' :: a₁ :: a₂ :: a₃ :: a₄ :: rest) = _
    rw [stringTail.eq_def]
    simp [hunit, hlead, htrail]
  | pair h hlead htrail =>
    obtain ⟨a₁, a₂, a₃, a₄, rfl, ha⟩ := hlead.exists_unit?
    obtain ⟨b₁, b₂, b₃, b₄, rfl, hb⟩ := htrail.exists_unit?
    have hisLead := isLead_of_large h
    have hisTrail := isTrail_of_large c
    have hnotTrail := isTrail_of_isLead hisLead
    change stringTail done ('\\' :: 'u' :: a₁ :: a₂ :: a₃ :: a₄ :: '\\' :: 'u' :: b₁ :: b₂ :: b₃ ::
      b₄ :: rest) = _
    rw [stringTail.eq_def]
    simp [ha, hb, hisLead, hisTrail, hnotTrail, pair_eq h]

/-- Every spelling of a text is read as the text. -/
theorem stringTail_spells (h : Spells text w) :
    stringTail done (w ++ '"' :: rest) = .ok (done.reverse ++ text, rest) := by
  induction h generalizing done with
  | nil =>
    rw [List.nil_append, stringTail.eq_def, List.append_nil]
    simp
  | cons hc _ ih =>
    rw [List.append_assoc, stringTail_spelling hc, ih, List.reverse_cons, List.append_assoc,
      List.singleton_append]

/-- **A string is read as a text exactly if it spells the text.** -/
theorem stringTail_eq_ok_iff :
    stringTail [] chars = .ok (text, rest) ↔ ∃ w, Spells text w ∧ chars = w ++ '"' :: rest := by
  refine ⟨fun h => ?_, ?_⟩
  · obtain ⟨t, w, rfl, hspells, rfl⟩ := exists_of_stringTail h
    exact ⟨w, hspells, rfl⟩
  · rintro ⟨w, hspells, rfl⟩
    exact stringTail_spells hspells

end stringTail

/-! ## Strings that are passed over -/

section skipStringTail

variable {chars rest w : List Char}

/-- What is passed over as a string is one. -/
theorem exists_of_skipStringTail (h : skipStringTail chars = .ok rest) :
    ∃ w, Loose w ∧ chars = w ++ '"' :: rest := by
  fun_induction skipStringTail chars with
  | case2 chars =>
    obtain rfl := Except.ok.inj h
    exact ⟨[], .nil, rfl⟩
  | case4 c chars hquote hspace hbackslash ih =>
    obtain ⟨w, hw, rfl⟩ := ih h
    exact ⟨c :: w, .plain ⟨hquote, hbackslash, not_lt.1 hspace⟩ hw, rfl⟩
  | case6 c hquote hspace hbackslash a₁ a₂ a₃ a₄ chars hunit ih =>
    obtain rfl := not_not.1 hbackslash
    obtain ⟨value, hvalue⟩ := Option.isSome_iff_exists.1 hunit
    obtain ⟨w, hw, rfl⟩ := ih h
    exact ⟨_, .unit (unit?_eq_some_iff.1 hvalue) hw, rfl⟩
  | case9 c hquote hspace hbackslash letter chars hu hletter ih =>
    obtain rfl := not_not.1 hbackslash
    obtain ⟨d, hd⟩ := Option.isSome_iff_exists.1 hletter
    obtain ⟨w, hw, rfl⟩ := ih h
    exact ⟨_, .short (shortEscape?_eq_some_iff.1 hd) hw, rfl⟩
  | _ => cases h

theorem skipStringTail_loose (h : Loose w) : skipStringTail (w ++ '"' :: rest) = .ok rest := by
  induction h with
  | nil =>
    rw [List.nil_append, skipStringTail.eq_def]
    simp
  | plain h _ ih =>
    obtain ⟨hquote, hbackslash, hspace⟩ := h
    rw [List.cons_append, skipStringTail.eq_def]
    simp only [if_neg hquote, if_neg hspace.not_gt, if_pos hbackslash]
    exact ih
  | short h _ ih =>
    have hescape := shortEscape?_eq_some_iff.2 h
    rw [List.cons_append, List.cons_append, skipStringTail.eq_def]
    simp [short_ne h, hescape, ih]
  | unit h _ ih =>
    obtain ⟨a₁, a₂, a₃, a₄, rfl, hunit⟩ := h.exists_unit?
    rw [List.append_assoc, skipStringTail.eq_def]
    simp [hunit, ih]

/-- **A string is passed over exactly if it is loosely well formed.** -/
theorem skipStringTail_eq_ok_iff :
    skipStringTail chars = .ok rest ↔ ∃ w, Loose w ∧ chars = w ++ '"' :: rest := by
  refine ⟨exists_of_skipStringTail, ?_⟩
  rintro ⟨w, hw, rfl⟩
  exact skipStringTail_loose hw

end skipStringTail

end Json

end Attest
