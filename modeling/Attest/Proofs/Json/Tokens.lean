import Mathlib
import Attest.Proofs.Json.Grammar

/-!
# Reading spaces, marks, words and numbers

The readers of the smaller tokens take exactly what the grammar allows. Space is taken as far as it
goes, and so is every part of a number: it is followed by something that cannot belong to it, no
digit after digits, no point after the whole part, no letter of an exponent after the fraction.

The main statements are `punctuation_eq_ok_iff`, `exists_of_numeral` and `numeral_append`.
-/

namespace Attest

section Results

variable {ε δ α β : Type}

theorem bind_eq_ok_iff {x : Except ε α} {f : α → Except ε β} {b : β} :
    x >>= f = .ok b ↔ ∃ a, x = .ok a ∧ f a = .ok b := by
  refine ⟨fun h => ?_, ?_⟩
  · cases x with
    | error e => cases h
    | ok a => exact ⟨a, rfl, h⟩
  · rintro ⟨a, rfl, h⟩
    exact h

theorem map_eq_ok_iff {x : Except ε α} {f : α → β} {b : β} :
    x.map f = .ok b ↔ ∃ a, x = .ok a ∧ f a = b := by
  refine ⟨fun h => ?_, ?_⟩
  · cases x with
    | error e => cases h
    | ok a => exact ⟨a, rfl, Except.ok.inj h⟩
  · rintro ⟨a, rfl, rfl⟩
    rfl

theorem mapError_eq_ok_iff {x : Except ε α} {f : ε → δ} {a : α} :
    x.mapError f = .ok a ↔ x = .ok a := by
  cases x with
  | error e => exact ⟨nofun, nofun⟩
  | ok b => exact ⟨fun h => congrArg Except.ok (Except.ok.inj h), fun h => by rw [h]; rfl⟩

end Results

namespace Json

open Grammar

variable {chars rest : List Char} {fault : Fault}

/-! ## Space -/

theorem isSpace_iff {c : Char} : isSpace c = true ↔ c ∈ [' ', '\t', '\n', '\r'] := by
  simp [isSpace, or_assoc]

theorem Grammar.Space.isSpace {space : List Char} (h : Space space) : ∀ c ∈ space, isSpace c :=
  fun c hc => isSpace_iff.2 (h c hc)

/-- Space in front is passed over. -/
theorem skipSpace_append {space : List Char} (h : Space space) :
    skipSpace (space ++ rest) = skipSpace rest := by
  rw [skipSpace, List.dropWhile_append_of_pos h.isSpace, skipSpace]

/-- Space is passed over up to the first character that is none. -/
theorem skipSpace_append_cons {space : List Char} {c : Char} (h : Space space)
    (hc : isSpace c = false) : skipSpace (space ++ c :: rest) = c :: rest := by
  rw [skipSpace_append h, skipSpace,
    List.dropWhile_cons_of_neg (by rw [hc]; exact Bool.false_ne_true)]

/-- What is passed over is space, and what comes next is none. -/
theorem exists_space (chars : List Char) :
    ∃ space, Space space ∧ chars = space ++ skipSpace chars ∧
      ∀ c ∈ (skipSpace chars).head?, isSpace c = false := by
  refine ⟨chars.takeWhile Json.isSpace, fun c hc => isSpace_iff.1 (List.mem_takeWhile_imp hc),
    List.takeWhile_append_dropWhile.symm, fun c hc => ?_⟩
  have hnot := List.head?_dropWhile_not Json.isSpace chars
  rw [skipSpace, Option.mem_def] at hc
  rw [hc] at hnot
  exact hnot

theorem exists_of_skipSpace {c : Char} (h : skipSpace chars = c :: rest) :
    isSpace c = false ∧ ∃ space, Space space ∧ chars = space ++ c :: rest := by
  obtain ⟨space, hspace, hchars, hhead⟩ := exists_space chars
  rw [h] at hchars hhead
  exact ⟨hhead c rfl, space, hspace, hchars⟩

theorem skipSpace_eq_nil_iff : skipSpace chars = [] ↔ Space chars := by
  rw [skipSpace, List.dropWhile_eq_nil_iff]
  exact ⟨fun h c hc => isSpace_iff.1 (h c hc), Space.isSpace⟩

/-! ## Marks and words -/

/-- A mark is taken exactly if it comes next after some space. -/
theorem punctuation_eq_ok_iff {mark : Char} (hmark : isSpace mark = false) :
    punctuation mark chars = .ok rest ↔ ∃ space, Space space ∧ chars = space ++ mark :: rest := by
  refine ⟨fun h => ?_, ?_⟩
  · rw [punctuation] at h
    rcases hskip : skipSpace chars with _ | ⟨c, next⟩
    · rw [hskip] at h
      cases h
    · rw [hskip] at h
      dsimp only at h
      split_ifs at h with hc
      obtain rfl := Except.ok.inj h
      subst hc
      exact (exists_of_skipSpace hskip).2
  · rintro ⟨space, hspace, rfl⟩
    rw [punctuation, skipSpace_append_cons hspace hmark]
    exact if_pos rfl

/-- A word is taken exactly if it comes next. -/
theorem word_eq_ok_iff {expected : List Char} :
    word expected chars = .ok rest ↔ chars = expected ++ rest := by
  induction expected generalizing chars with
  | nil =>
    rw [word, List.nil_append]
    exact ⟨Except.ok.inj, congrArg _⟩
  | cons e expected ih =>
    cases chars with
    | nil => exact ⟨nofun, nofun⟩
    | cons c chars =>
      rw [word, List.cons_append, List.cons.injEq, ← ih]
      by_cases hc : c = e
      · rw [if_pos hc, and_iff_right hc]
      · rw [if_neg hc]
        exact ⟨nofun, fun h => absurd h.1 hc⟩

/-! ## Digits -/

/-- No digit comes next. -/
def NoDigit (rest : List Char) : Prop := ∀ c ∈ rest.head?, c.isDigit = false

theorem NoDigit.takeWhile (h : NoDigit rest) : rest.takeWhile Char.isDigit = [] := by
  rcases rest with _ | ⟨c, rest⟩
  · rfl
  · exact List.takeWhile_cons_of_neg (by rw [h c rfl]; exact Bool.false_ne_true)

theorem NoDigit.dropWhile (h : NoDigit rest) : rest.dropWhile Char.isDigit = rest := by
  rcases rest with _ | ⟨c, rest⟩
  · rfl
  · exact List.dropWhile_cons_of_neg (by rw [h c rfl]; exact Bool.false_ne_true)

/-- Digits are taken exactly if there are some, and as many as there are. -/
theorem digits_eq_ok_iff {run : List Char} :
    digits fault chars = .ok (run, rest) ↔ Digits run ∧ NoDigit rest ∧ chars = run ++ rest := by
  refine ⟨fun h => ?_, ?_⟩
  · rw [digits.eq_def] at h
    rcases chars with _ | ⟨c, chars⟩
    · cases h
    · dsimp only at h
      split_ifs at h with hc
      obtain ⟨rfl, rfl⟩ := Prod.mk.inj (Except.ok.inj h)
      refine ⟨⟨?_, fun d hd => List.mem_takeWhile_imp hd⟩, fun d hd => ?_,
        List.takeWhile_append_dropWhile.symm⟩
      · rw [List.takeWhile_cons_of_pos hc]
        exact List.cons_ne_nil _ _
      · have hnot := List.head?_dropWhile_not Char.isDigit (c :: chars)
        rw [Option.mem_def.1 hd] at hnot
        exact hnot
  · rintro ⟨⟨hne, hdigits⟩, hrest, rfl⟩
    obtain ⟨c, run, rfl⟩ := List.exists_cons_of_ne_nil hne
    rw [List.cons_append, digits, if_pos (hdigits c List.mem_cons_self), ← List.cons_append,
      List.takeWhile_append_of_pos hdigits, List.dropWhile_append_of_pos hdigits, hrest.takeWhile,
      hrest.dropWhile, List.append_nil]

/-! ## Numbers -/

theorem wholePart_eq_ok_iff {run : List Char} :
    wholePart fault chars = .ok (run, rest) ↔ Whole run ∧ NoDigit rest ∧ chars = run ++ rest := by
  rw [wholePart, bind_eq_ok_iff]
  refine ⟨?_, ?_⟩
  · rintro ⟨⟨run', rest'⟩, hdigits, h⟩
    obtain ⟨hrun, hrest, rfl⟩ := digits_eq_ok_iff.1 hdigits
    dsimp only at h
    split_ifs at h with hzero
    obtain ⟨rfl, rfl⟩ := Prod.mk.inj (Except.ok.inj h)
    exact ⟨⟨hrun, fun hhead => by_contra fun hne => hzero ⟨hhead, hne⟩⟩, hrest, rfl⟩
  · rintro ⟨⟨hrun, hzero⟩, hrest, rfl⟩
    refine ⟨(run, rest), digits_eq_ok_iff.2 ⟨hrun, hrest, rfl⟩, ?_⟩
    exact if_neg fun h => h.2 (hzero h.1)

theorem exists_of_fractionPart {fraction : Option (List Char)}
    (h : fractionPart fault chars = .ok (fraction, rest)) :
    ∃ w, Fraction w ∧ chars = w ++ rest := by
  rw [fractionPart.eq_def] at h
  split at h
  · obtain ⟨⟨run, rest'⟩, hdigits, hfraction⟩ := bind_eq_ok_iff.1 h
    obtain ⟨hrun, -, rfl⟩ := digits_eq_ok_iff.1 hdigits
    obtain ⟨-, rfl⟩ := Prod.mk.inj (Except.ok.inj hfraction)
    exact ⟨_, .some hrun, rfl⟩
  · obtain ⟨-, rfl⟩ := Prod.mk.inj (Except.ok.inj h)
    exact ⟨[], .none, rfl⟩

theorem fractionPart_append {fraction : Option (List Char)} {w : List Char}
    (h : FractionOf fraction w) (hdigit : NoDigit rest) (hpoint : ∀ c ∈ rest.head?, c ≠ '.') :
    fractionPart fault (w ++ rest) = .ok (fraction, rest) := by
  cases h with
  | none =>
    rw [List.nil_append, fractionPart.eq_def]
    split
    · exact absurd rfl (hpoint '.' rfl)
    · rfl
  | some hrun =>
    rw [List.cons_append, fractionPart, digits_eq_ok_iff.2 ⟨hrun, hdigit, rfl⟩]
    rfl

theorem exists_of_signPart (chars : List Char) :
    ∃ sign, Sign sign ∧ chars = sign ++ (signPart chars).2 := by
  rw [signPart.eq_def]
  split
  · exact ⟨['-'], by simp [Sign], rfl⟩
  · exact ⟨['+'], by simp [Sign], rfl⟩
  · exact ⟨[], by simp [Sign], rfl⟩

theorem signPart_append {negative : Bool} {sign : List Char} (h : SignOf negative sign)
    (hrest : ∀ c ∈ rest.head?, c.isDigit = true) : signPart (sign ++ rest) = (negative, rest) := by
  cases negative with
  | true =>
    obtain rfl : sign = ['-'] := List.mem_singleton.1 h
    rfl
  | false =>
    have hsign : sign = [] ∨ sign = ['+'] := by simpa [SignOf] using h
    obtain rfl | rfl := hsign
    · rw [List.nil_append, signPart.eq_def]
      split
      · exact absurd (hrest '-' rfl) (by decide)
      · exact absurd (hrest '+' rfl) (by decide)
      · rfl
    · rfl

theorem Grammar.Digits.exists_cons {run : List Char} (h : Digits run) :
    ∃ c v, run = c :: v ∧ c.isDigit = true := by
  obtain ⟨hne, hdigits⟩ := h
  obtain ⟨c, v, rfl⟩ := List.exists_cons_of_ne_nil hne
  exact ⟨c, v, rfl, hdigits c List.mem_cons_self⟩

theorem Grammar.Digits.head? {run : List Char} (h : Digits run) :
    ∀ c ∈ (run ++ rest).head?, c.isDigit = true := by
  obtain ⟨c, v, rfl, hc⟩ := h.exists_cons
  rintro d ⟨⟩
  exact hc

theorem exists_of_exponentPart {exponent : Option (Bool × List Char)}
    (h : exponentPart fault chars = .ok (exponent, rest)) :
    ∃ w, Exponent w ∧ chars = w ++ rest := by
  rw [exponentPart.eq_def] at h
  rcases chars with _ | ⟨letter, chars⟩
  · obtain ⟨-, rfl⟩ := Prod.mk.inj (Except.ok.inj h)
    exact ⟨[], .none, rfl⟩
  · dsimp only at h
    split_ifs at h with hletter
    · obtain ⟨sign, hsign, hchars⟩ := exists_of_signPart chars
      obtain ⟨⟨run, rest'⟩, hdigits, hexponent⟩ := bind_eq_ok_iff.1 h
      obtain ⟨hrun, -, hrest⟩ := digits_eq_ok_iff.1 hdigits
      obtain ⟨-, rfl⟩ := Prod.mk.inj (Except.ok.inj hexponent)
      refine ⟨_, .some hletter hsign hrun, ?_⟩
      rw [hrest] at hchars
      rw [hchars, List.cons_append, List.cons_append, List.append_assoc]
    · obtain ⟨-, rfl⟩ := Prod.mk.inj (Except.ok.inj h)
      exact ⟨[], .none, rfl⟩

theorem exponentPart_append {exponent : Option (Bool × List Char)} {w : List Char}
    (h : ExponentOf exponent w) (hdigit : NoDigit rest)
    (hletter : ∀ c ∈ rest.head?, c ≠ 'e' ∧ c ≠ 'E') :
    exponentPart fault (w ++ rest) = .ok (exponent, rest) := by
  cases h with
  | none =>
    rw [List.nil_append]
    rcases rest with _ | ⟨c, rest⟩
    · rfl
    · obtain ⟨he, hE⟩ := hletter c rfl
      exact if_neg fun h => h.elim he hE
  | some hletter hsign hrun =>
    rw [List.cons_append, List.cons_append, List.append_assoc, exponentPart, if_pos hletter,
      signPart_append hsign hrun.head?]
    dsimp only
    rw [digits_eq_ok_iff.2 ⟨hrun, hdigit, rfl⟩]
    rfl

/-- Takes what follows the sign of a number. -/
def unsignedPart (fault : Fault) (negative : Bool) (chars : List Char) :
    Except Fault (Numeral × List Char) := do
  let (whole, rest) ← wholePart fault chars
  let (fraction, rest) ← fractionPart fault rest
  let (exponent, rest) ← exponentPart fault rest
  pure (⟨negative, whole, fraction, exponent⟩, rest)

theorem numeral_minus : numeral fault ('-' :: chars) = unsignedPart fault true chars := rfl

theorem numeral_of_head? (h : ∀ c ∈ chars.head?, c ≠ '-') :
    numeral fault chars = unsignedPart fault false chars := by
  rw [numeral.eq_def]
  split
  next negative tail htail =>
    split at htail
    · exact absurd rfl (h '-' rfl)
    · obtain ⟨rfl, rfl⟩ := Prod.mk.inj htail
      rfl

theorem exists_of_unsignedPart {negative : Bool} {n : Numeral}
    (h : unsignedPart fault negative chars = .ok (n, rest)) :
    ∃ whole fraction exponent, Whole whole ∧ Fraction fraction ∧ Exponent exponent ∧
      chars = whole ++ fraction ++ exponent ++ rest := by
  obtain ⟨⟨whole, rest₁⟩, hpart, h₁⟩ := bind_eq_ok_iff.1 h
  obtain ⟨hwhole, -, rfl⟩ := wholePart_eq_ok_iff.1 hpart
  obtain ⟨⟨fraction, rest₂⟩, hfraction, h₂⟩ := bind_eq_ok_iff.1 h₁
  obtain ⟨f, hf, rfl⟩ := exists_of_fractionPart hfraction
  obtain ⟨⟨exponent, rest₃⟩, hexponent, h₃⟩ := bind_eq_ok_iff.1 h₂
  obtain ⟨e, he, rfl⟩ := exists_of_exponentPart hexponent
  obtain ⟨-, rfl⟩ := Prod.mk.inj (Except.ok.inj h₃)
  refine ⟨whole, f, e, hwhole, hf, he, ?_⟩
  rw [List.append_assoc, List.append_assoc]

/-- What is taken as a number is one. -/
theorem exists_of_numeral {n : Numeral} (h : numeral fault chars = .ok (n, rest)) :
    ∃ w, Number w ∧ chars = w ++ rest := by
  by_cases hminus : chars.head? = some '-'
  · obtain ⟨chars, rfl⟩ := List.head?_eq_some_iff.1 hminus
    rw [numeral_minus] at h
    obtain ⟨whole, fraction, exponent, hwhole, hfraction, hexponent, rfl⟩ :=
      exists_of_unsignedPart h
    exact ⟨_, .intro (.inr rfl) hwhole hfraction hexponent, rfl⟩
  · rw [numeral_of_head? fun c hc => by rintro rfl; exact hminus hc] at h
    obtain ⟨whole, fraction, exponent, hwhole, hfraction, hexponent, rfl⟩ :=
      exists_of_unsignedPart h
    exact ⟨_, .intro (.inl rfl) hwhole hfraction hexponent, rfl⟩

/-! What follows a number cannot belong to any of its parts. -/

/-- Nothing comes next that could be a part of a number. -/
def Delimited (rest : List Char) : Prop :=
  ∀ c ∈ rest.head?, c.isDigit = false ∧ c ≠ '.' ∧ c ≠ 'e' ∧ c ≠ 'E'

theorem Grammar.Ends.delimited (hrest : Ends rest) : Delimited rest := by
  intro c hc
  have hmem := hrest c hc
  simp only [List.mem_cons, List.not_mem_nil, or_false] at hmem
  rcases hmem with rfl | rfl | rfl | rfl | rfl | rfl | rfl <;> decide

theorem Delimited.noDigit (h : Delimited rest) : NoDigit rest := fun c hc => (h c hc).1

theorem Grammar.ExponentOf.head? {exponent : Option (Bool × List Char)} {w : List Char}
    (h : ExponentOf exponent w) : ∀ c ∈ (w ++ rest).head?, c = 'e' ∨ c = 'E' ∨ c ∈ rest.head? := by
  cases h with
  | none => exact fun c hc => .inr (.inr hc)
  | some hletter =>
    rintro c ⟨⟩
    exact hletter.elim .inl fun hE => .inr (.inl hE)

theorem Grammar.FractionOf.head? {fraction : Option (List Char)} {w : List Char}
    (h : FractionOf fraction w) : ∀ c ∈ (w ++ rest).head?, c = '.' ∨ c ∈ rest.head? := by
  cases h with
  | none => exact fun c hc => .inr hc
  | some =>
    rintro c ⟨⟩
    exact .inl rfl

theorem unsignedPart_append {n : Numeral} {fraction exponent : List Char}
    (hwhole : Whole n.whole) (hfraction : FractionOf n.fraction fraction)
    (hexponent : ExponentOf n.exponent exponent) (hrest : Delimited rest) :
    unsignedPart fault n.negative (n.whole ++ fraction ++ exponent ++ rest) = .ok (n, rest) := by
  have hafterFraction : ∀ c ∈ (exponent ++ rest).head?, c.isDigit = false ∧ c ≠ '.' := by
    intro c hc
    rcases hexponent.head? c hc with rfl | rfl | hc
    · decide
    · decide
    · exact ⟨(hrest c hc).1, (hrest c hc).2.1⟩
  have hafterWhole : NoDigit (fraction ++ (exponent ++ rest)) := by
    intro c hc
    rcases hfraction.head? c hc with rfl | hc
    · decide
    · exact (hafterFraction c hc).1
  have he : exponentPart fault (exponent ++ rest) = .ok (n.exponent, rest) :=
    exponentPart_append hexponent hrest.noDigit fun c hc => (hrest c hc).2.2
  have hf : fractionPart fault (fraction ++ (exponent ++ rest)) =
      .ok (n.fraction, exponent ++ rest) :=
    fractionPart_append hfraction (fun c hc => (hafterFraction c hc).1)
      fun c hc => (hafterFraction c hc).2
  refine bind_eq_ok_iff.2 ⟨(n.whole, fraction ++ (exponent ++ rest)), ?_,
    bind_eq_ok_iff.2 ⟨_, hf, bind_eq_ok_iff.2 ⟨_, he, rfl⟩⟩⟩
  rw [wholePart_eq_ok_iff, List.append_assoc, List.append_assoc]
  exact ⟨hwhole, hafterWhole, rfl⟩

/-- **A number is taken as a whole**, and taken apart into its parts. -/
theorem numeral_append {n : Numeral} {w : List Char} (h : NumberOf n w) (hrest : Delimited rest) :
    numeral fault (w ++ rest) = .ok (n, rest) := by
  obtain ⟨hwhole, hfraction, hexponent⟩ := h
  have hunsigned : unsignedPart fault n.negative _ = .ok (n, rest) :=
    unsignedPart_append hwhole hfraction hexponent hrest
  cases hminus : n.negative with
  | true =>
    rw [hminus] at hunsigned
    exact hunsigned
  | false =>
    rw [hminus] at hunsigned
    rw [if_neg Bool.false_ne_true, List.nil_append, numeral_of_head?]
    · exact hunsigned
    · rw [List.append_assoc, List.append_assoc]
      intro c hc
      have hdigit := hwhole.1.head? c hc
      rintro rfl
      exact absurd hdigit (by decide)

/-- A number begins with a character that can start one. -/
theorem Grammar.NumberOf.exists_cons {n : Numeral} {w : List Char} (h : NumberOf n w) :
    ∃ c v, w = c :: v ∧ startsNumeral c = true := by
  obtain ⟨⟨hdigits, -⟩, -, -⟩ := h
  cases n.negative with
  | true => exact ⟨'-', _, rfl, rfl⟩
  | false =>
    obtain ⟨c, whole, hwhole, hc⟩ := hdigits.exists_cons
    rw [hwhole]
    refine ⟨c, _, rfl, ?_⟩
    rw [startsNumeral, hc, Bool.or_true]

theorem ne_of_startsNumeral {c d : Char} (hc : startsNumeral c = true)
    (hd : startsNumeral d = false) : c ≠ d := by
  rintro rfl
  exact absurd hc (by rw [hd]; exact Bool.false_ne_true)

theorem isSpace_of_startsNumeral {c : Char} (hc : startsNumeral c = true) : isSpace c = false := by
  have hne := fun d => ne_of_startsNumeral (d := d) hc
  rw [← Bool.not_eq_true, isSpace_iff]
  simp only [List.mem_cons, List.not_mem_nil, or_false, not_or]
  exact ⟨hne ' ' rfl, hne '\t' rfl, hne '\n' rfl, hne '\r' rfl⟩

end Json

end Attest
