import Mathlib
import Attest.CommandLine.Spelling
import Attest.CommandLine.Reading
import Attest.Proofs.Lookup
import Attest.Proofs.Text.Decimal

/-!
# Options that carry their values

An argument that starts with two dashes is a long name up to its first equals sign, and all that
follows is the value, whatever it looks like. So an option with its value in the same argument is
read at once, and nothing of it is left for later arguments; and where every option comes once, the
reader finds them all, each with its value.

The main statements are `Scan.takeLong_entry` and `Scan.takeAll_entries`.
-/

namespace Attest.CommandLine

variable {name : Name} {scan : Scan} {opt : Opt} {value : Value} {entry : Opt × Value}

/-! ## Values -/

/-- Which values an option of some form can have. -/
inductive Form.Takes : Form → Value → Prop where
  | flag : Takes .flag .flag
  | text (value : String) : Takes .text (.text value)
  | path {value : String} (h : value ≠ "") : Takes .path (.text value)
  | count (value : UInt64) : Takes .count (.count value)

/-- What is written behind the equals sign for a value, if it takes one. -/
def Value.attached? : Value → Option (List Char)
  | .flag => none
  | .text value => some value.toList
  | .count value => some (Text.decimal value.toNat)

/-- Digits are read as the number that they spell, if that has 64 bits. -/
theorem readCount?_of_isDigit {digits : List Char} {count : UInt64} (hne : digits ≠ [])
    (hdigits : ∀ c ∈ digits, c.isDigit) (hvalue : Nat.ofDigitChars 10 digits 0 = count.toNat) :
    readCount? digits = some count := by
  have hsign : ∀ rest, digits = '+' :: rest → False := by
    rintro rest rfl
    exact absurd (hdigits '+' List.mem_cons_self) (by decide)
  have hall : digits.all Char.isDigit = true := List.all_eq_true.2 hdigits
  rw [readCount?, Text.foldl_eq_ofDigitChars, hvalue]
  · simp [hne, hall, count.toNat_lt_size]
  · exact hsign

theorem readCount?_decimal (count : UInt64) :
    readCount? (Text.decimal count.toNat) = some count :=
  have hdecimal := Text.isDecimal_decimal count.toNat
  readCount?_of_isDigit hdecimal.ne_nil hdecimal.isDigit hdecimal.spells

/-- What is written for a value is read as that value. -/
theorem readValue_attached {form : Form} {chars : List Char} (h : form.Takes value)
    (hchars : value.attached? = some chars) : readValue form chars = .ok value := by
  cases h with
  | flag => cases hchars
  | text value =>
    obtain rfl := Option.some.inj hchars
    rw [readValue, String.ofList_toList]
  | path hne =>
    obtain rfl := Option.some.inj hchars
    rw [readValue, if_neg (by simpa using hne), String.ofList_toList]
  | count value =>
    obtain rfl := Option.some.inj hchars
    rw [readValue, readCount?_decimal]

/-- Only a flag goes without a value. -/
theorem form_eq_flag_of_attached {form : Form} (h : form.Takes value)
    (hnone : value.attached? = none) : form = .flag ∧ value = .flag := by
  cases h with
  | flag => exact ⟨rfl, rfl⟩
  | text | path | count => cases hnone

theorem form_ne_flag_of_attached {form : Form} {chars : List Char} (h : form.Takes value)
    (hchars : value.attached? = some chars) : form ≠ .flag := by
  cases h with
  | flag => cases hchars
  | text | path | count => decide

/-! ## Names -/

theorem ofWord?_word (name : Name) : Name.ofWord? name.word = some name := by
  cases name <;> decide

/-- No two options of a command have the same long name, and none is called help. -/
theorem requestOfLong?_long (h : opt ∈ name.options) :
    name.requestOfLong? opt.long.toList = some (.option opt) := by
  cases name <;> cases opt <;> revert h <;> decide

theorem not_mem_long (opt : Opt) : '=' ∉ opt.long.toList := by
  cases opt <;> decide

theorem long_ne_nil (opt : Opt) : opt.long.toList ≠ [] := by
  cases opt <;> decide

/-! ## One argument -/

/-- An option with its value, in one argument. -/
def spelledEntry (entry : Opt × Value) : String :=
  match entry.2.attached? with
  | none => spellFlag entry.1
  | some chars => spell entry.1 chars

/-- What stands behind the long name of an option in its argument. -/
def attachment : Option (List Char) → List Char
  | none => []
  | some chars => '=' :: chars

theorem toList_spelledEntry (entry : Opt × Value) : (spelledEntry entry).toList =
    '-' :: '-' :: (entry.1.long.toList ++ attachment entry.2.attached?) := by
  rw [spelledEntry]
  cases entry.2.attached? with
  | none => simp [spellFlag, attachment]
  | some chars => simp [spell, attachment]

namespace Scan

theorem settle_of_pending_eq_none (h : scan.pending = none) : scan.settle = .ok scan := by
  rw [settle, h]

theorem add_of_not_mem (h : opt ∉ scan.found.map Prod.fst) (value : Value) :
    scan.add opt (.ok value) = .ok { scan with found := (opt, value) :: scan.found } := by
  rw [add, if_neg (mt isSome_lookup_iff_mem.1 h)]
  rfl

/-- The name ends at the first equals sign, and any others belong to the value. -/
theorem takeLong_attachment (h : opt ∈ name.options) (attached : Option (List Char)) :
    scan.takeLong name (opt.long.toList ++ attachment attached) =
      scan.takeRequest (.option opt) attached := by
  have hname : ∀ c ∈ opt.long.toList, decide (c ≠ '=') = true := fun c hc =>
    decide_eq_true (ne_of_mem_of_not_mem hc (not_mem_long opt))
  have htake : (attachment attached).takeWhile (· ≠ '=') = [] := by
    cases attached <;> simp [attachment]
  have hdrop : ((attachment attached).dropWhile (· ≠ '=')).tail? = attached := by
    cases attached <;> simp [attachment]
  rw [takeLong, List.takeWhile_append_of_pos hname, List.dropWhile_append_of_pos hname, htake,
    hdrop, List.append_nil, requestOfLong?_long h]

theorem takeOption_attached (htakes : opt.form.Takes value) (hpending : scan.pending = none)
    (hnew : opt ∉ scan.found.map Prod.fst) :
    scan.takeOption opt value.attached? =
      .ok { scan with found := (opt, value) :: scan.found } := by
  rw [takeOption, settle_of_pending_eq_none hpending]
  rcases hattached : value.attached? with _ | chars
  · obtain ⟨hform, rfl⟩ := form_eq_flag_of_attached htakes hattached
    rw [hform]
    exact add_of_not_mem hnew .flag
  · rw [← add_of_not_mem hnew, ← readValue_attached htakes hattached]
    rfl

/-- **An option with its value is read at once.** -/
theorem takeLong_entry (hopt : opt ∈ name.options) (htakes : opt.form.Takes value)
    (hpending : scan.pending = none) (hnew : opt ∉ scan.found.map Prod.fst) :
    scan.takeLong name (opt.long.toList ++ attachment value.attached?) =
      .ok { scan with found := (opt, value) :: scan.found } := by
  have hwanted : ¬(opt.form = .flag ∧ value.attached?.isSome) := by
    rintro ⟨hform, hsome⟩
    obtain ⟨chars, hchars⟩ := Option.isSome_iff_exists.1 hsome
    exact form_ne_flag_of_attached htakes hchars hform
  rw [takeLong_attachment hopt, takeRequest, if_neg hwanted]
  exact takeOption_attached htakes hpending hnew

/-! ## Many arguments -/

theorem takeAll_long {long : List Char} (h : long ≠ []) (rest : List (List Char)) :
    takeAll name false scan (('-' :: '-' :: long) :: rest) =
      scan.takeLong name long >>= fun scan => takeAll name false scan rest := by
  cases long with
  | nil => exact absurd rfl h
  | cons c long => rfl

/-- **Options that come once each are all found**, and nothing of them is pending when the other
arguments are reached. -/
theorem takeAll_entries {entries : List (Opt × Value)}
    (hentries : ∀ entry ∈ entries, entry.1 ∈ name.options ∧ entry.1.form.Takes entry.2)
    (hnames : ((entries.reverse ++ scan.found).map Prod.fst).Nodup) (hpending : scan.pending = none)
    (rest : List (List Char)) :
    takeAll name false scan ((entries.map spelledEntry).map String.toList ++ rest) =
      takeAll name false { scan with found := entries.reverse ++ scan.found } rest := by
  induction entries generalizing scan with
  | nil => rfl
  | cons entry entries ih =>
    obtain ⟨⟨hopt, htakes⟩, hentries⟩ := List.forall_mem_cons.1 hentries
    rw [List.reverse_cons, List.append_assoc, List.singleton_append] at hnames ⊢
    have hnew : entry.1 ∉ scan.found.map Prod.fst := by
      rw [List.map_append] at hnames
      exact (List.nodup_cons.1 hnames.of_append_right).1
    have hne : entry.1.long.toList ++ attachment entry.2.attached? ≠ [] :=
      List.append_ne_nil_of_left_ne_nil (long_ne_nil entry.1) _
    rw [List.map_cons, List.map_cons, List.cons_append, toList_spelledEntry, takeAll_long hne,
      takeLong_entry hopt htakes hpending hnew]
    change takeAll name false { scan with found := entry :: scan.found } _ = _
    exact ih hentries hnames hpending

end Scan

end Attest.CommandLine
