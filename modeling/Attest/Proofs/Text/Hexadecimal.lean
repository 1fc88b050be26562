import Mathlib
import Attest.Text
import Attest.Proofs.Text.Digits

/-!
# Reading hexadecimal text

Digits are read without regard to their case, so that some characters are read as some bytes exactly
if their lower-case form is what is written for these bytes. In particular no two runs of bytes are
written alike. Whether a text consists of digits can be asked of its characters or of its UTF-8
bytes.

The main statements are `Hex.decode?_eq_some_iff` and `Hex.isSome_decode?_iff`.
-/

namespace Attest

/-- What holds of the characters below a bound, one by one, holds of a character below it. -/
theorem Text.of_forall_lt {P : Char → Prop} {bound : ℕ} (h : ∀ n < bound, P (Char.ofNat n))
    {c : Char} (hc : c.toNat < bound) : P c := by
  have := h c.toNat hc
  rwa [Char.ofNat_toNat] at this

namespace Hex

/-! ## One digit -/

/-- The digits of either case as code points. -/
theorem isDigit_iff {c : Char} :
    isDigit c ↔ 48 ≤ c.toNat ∧ c.toNat ≤ 57 ∨ 97 ≤ c.toNat ∧ c.toNat ≤ 102 ∨
      65 ≤ c.toNat ∧ c.toNat ≤ 70 := by
  simp only [isDigit, value?, Char.le_def, UInt32.le_iff_toNat_le]
  change (if 48 ≤ c.toNat ∧ c.toNat ≤ 57 then _ else if 97 ≤ c.toNat ∧ c.toNat ≤ 102 then _ else
    if 65 ≤ c.toNat ∧ c.toNat ≤ 70 then _ else _ : Option ℕ).isSome = true ↔ _
  split_ifs <;> simp <;> omega

theorem lt_of_isDigit {c : Char} (h : isDigit c) : c.toNat < 128 := by
  rw [isDigit_iff] at h
  omega

/-- The digits, in either case. -/
def digits : List Char :=
  ['0', '1', '2', '3', '4', '5', '6', '7', '8', '9', 'a', 'b', 'c', 'd', 'e', 'f',
    'A', 'B', 'C', 'D', 'E', 'F']

theorem isDigit_iff_mem {c : Char} : isDigit c ↔ c ∈ digits := by
  constructor
  · intro h
    exact Text.of_forall_lt (P := fun c => isDigit c → c ∈ digits) (by decide +kernel)
      (lt_of_isDigit h) h
  · intro h
    have hall : digits.all isDigit = true := by decide
    exact List.all_eq_true.1 hall c h

theorem isDigit_of_isLowerDigit {c : Char} (h : isLowerDigit c) : isDigit c := by
  rw [isLowerDigit_iff] at h
  rw [isDigit_iff]
  omega

theorem not_isBlank_of_isDigit {c : Char} (h : isDigit c) : ¬Text.isBlank c := by
  rw [isDigit_iff] at h
  simp only [Text.isBlank, Bool.or_eq_true, Bool.and_eq_true, decide_eq_true_eq]
  omega

/-- The digits that are written are the digits in lower case. -/
theorem isLowerDigit_iff_isDigit {c : Char} : isLowerDigit c ↔ isDigit c ∧ ¬c.isUpper := by
  rw [isLowerDigit_iff, isDigit_iff, Text.isUpper_iff]
  omega

/-- A character in upper case and the character in lower case stand for the same value. -/
theorem value?_toLower (c : Char) : value? c.toLower = value? c := by
  by_cases hupper : c.isUpper
  · rw [Text.isUpper_iff] at hupper
    have hlt : c.toNat < 128 := by omega
    exact Text.of_forall_lt (P := fun c => value? c.toLower = value? c) (by decide) hlt
  · rw [Char.toLower_eq_of_not_isUpper hupper]

/-- The digit that is written for the value of a digit is that digit in lower case. -/
theorem digitChar_of_value? {c : Char} {value : ℕ} (h : value? c = some value) :
    value < 16 ∧ Nat.digitChar value = c.toLower := by
  have hdigit : isDigit c := by rw [isDigit, h, Option.isSome_some]
  have hall : ∀ v ∈ value? c, v < 16 ∧ Nat.digitChar v = c.toLower :=
    Text.of_forall_lt (P := fun c => ∀ v ∈ value? c, v < 16 ∧ Nat.digitChar v = c.toLower)
      (by decide) (lt_of_isDigit hdigit)
  exact hall value h

/-! ## Runs of digits -/

/-- The case of the digits plays no part in reading. -/
theorem decode?_lower (chars : List Char) : decode? (Text.lower chars) = decode? chars := by
  induction chars using decode?.induct with
  | case1 => rfl
  | case2 c => rfl
  | case3 high low rest ih =>
    simp only [Text.lower, List.map_cons, decode?, value?_toLower] at ih ⊢
    rw [ih]

/-- What is written consists of lower-case digits, so it is its own lower-case form. -/
theorem lower_encode (bytes : Bytes) : Text.lower (encode bytes) = encode bytes := by
  refine List.map_congr_left (g := id) (fun c hc => ?_) |>.trans (List.map_id _)
  exact toLower_of_isLowerDigit (isLowerDigit_of_mem_encode hc)

/-- What is read is written as the lower-case form of what it is read from. -/
theorem encode_of_decode? {chars : List Char} {bytes : Bytes} (h : decode? chars = some bytes) :
    encode bytes = Text.lower chars := by
  induction chars using decode?.induct generalizing bytes with
  | case1 =>
    obtain rfl := Option.some.inj h
    rfl
  | case2 c => cases h
  | case3 high low rest ih =>
    simp only [decode?, bind, Option.bind_eq_some_iff, pure, Option.some.injEq] at h
    obtain ⟨i, hi, j, hj, tail, htail, rfl⟩ := h
    obtain ⟨hi16, hhigh⟩ := digitChar_of_value? hi
    obtain ⟨hj16, hlow⟩ := digitChar_of_value? hj
    have hbyte : (UInt8.ofNat (16 * i + j)).toNat = 16 * i + j := by
      rw [UInt8.toNat_ofNat']
      omega
    have hdiv : (16 * i + j) / 16 = i := by omega
    have hmod : (16 * i + j) % 16 = j := by omega
    rw [encode_cons, hbyte, hdiv, hmod, hhigh, hlow, ih htail]
    rfl

/-- **Characters are read as some bytes** exactly if their lower-case form is written for these. -/
theorem decode?_eq_some_iff {chars : List Char} {bytes : Bytes} :
    decode? chars = some bytes ↔ Text.lower chars = encode bytes := by
  refine ⟨fun h => (encode_of_decode? h).symm, fun h => ?_⟩
  rw [← decode?_lower, h, decode?_encode]

theorem encode_injective : Function.Injective encode := by
  intro a b h
  have := congrArg decode? h
  rwa [decode?_encode, decode?_encode, Option.some.injEq] at this

/-- Reading succeeds exactly on an even number of digits. -/
theorem isSome_decode?_iff {chars : List Char} :
    (decode? chars).isSome ↔ chars.length % 2 = 0 ∧ ∀ c ∈ chars, isDigit c := by
  induction chars using decode?.induct with
  | case1 => simp [decode?]
  | case2 c => simp [decode?]
  | case3 high low rest ih =>
    simp only [List.forall_mem_cons, List.length_cons, Nat.add_assoc, Nat.add_mod_right]
    rw [and_left_comm, and_left_comm (a := rest.length % 2 = 0), ← ih]
    simp only [isDigit, decode?]
    cases value? high <;> cases value? low <;> cases decode? rest <;> simp

/-- Whether characters are digits does not depend on their case. -/
theorem isDigit_of_lower_eq {a b : List Char} (h : Text.lower a = Text.lower b)
    (hb : ∀ c ∈ b, isDigit c) : ∀ c ∈ a, isDigit c := by
  intro c hc
  have hlower : c.toLower ∈ Text.lower b := by
    rw [← h]
    exact List.mem_map_of_mem hc
  obtain ⟨d, hd, hcd⟩ := List.mem_map.1 hlower
  rw [isDigit, ← value?_toLower, ← hcd, value?_toLower]
  exact hb d hd

theorem encode_append (a b : Bytes) : encode (a ++ b) = encode a ++ encode b :=
  List.flatMap_append

theorem length_of_lower_eq_encode {chars : List Char} {bytes : Bytes}
    (h : Text.lower chars = encode bytes) : chars.length = 2 * bytes.length := by
  rw [← length_encode, ← h, Text.lower, List.length_map]

/-- What is written in digits is written in digits in any casing. -/
theorem isDigit_of_lower_eq_encode {chars : List Char} {bytes : Bytes}
    (h : Text.lower chars = encode bytes) : ∀ c ∈ chars, isDigit c := by
  refine isDigit_of_lower_eq (h.trans (lower_encode bytes).symm) fun c hc => ?_
  exact isDigit_of_isLowerDigit (isLowerDigit_of_mem_encode hc)

/-- An even number of digits is that of some bytes. -/
theorem exists_lower_eq_encode {chars : List Char} {count : ℕ} (hlength : chars.length = 2 * count)
    (hdigits : ∀ c ∈ chars, isDigit c) :
    ∃ bytes : Bytes, bytes.length = count ∧ Text.lower chars = encode bytes := by
  have hsome : (decode? chars).isSome := by
    rw [isSome_decode?_iff]
    exact ⟨by omega, hdigits⟩
  obtain ⟨bytes, hbytes⟩ := Option.isSome_iff_exists.1 hsome
  have hlower := decode?_eq_some_iff.1 hbytes
  have hcount := length_of_lower_eq_encode hlower
  exact ⟨bytes, by omega, hlower⟩

/-! ## Digits as bytes -/

/-- Whether a byte is a digit of either case. -/
def isDigitByte (byte : UInt8) : Bool := isDigit (Char.ofNat byte.toNat)

theorem isDigitByte_iff {byte : UInt8} :
    isDigitByte byte ↔ 48 ≤ byte.toNat ∧ byte.toNat ≤ 57 ∨ 97 ≤ byte.toNat ∧ byte.toNat ≤ 102 ∨
      65 ≤ byte.toNat ∧ byte.toNat ≤ 70 := by
  have hlt := byte.toNat_lt
  have hvalid : byte.toNat.isValidChar := Or.inl (by omega)
  rw [isDigitByte, isDigit_iff, Char.toNat_ofNat, if_pos hvalid]

/-- A character is a digit exactly if every byte of it is one. -/
theorem forall_isDigitByte_iff {c : Char} :
    (∀ byte ∈ String.utf8EncodeChar c, isDigitByte byte) ↔ isDigit c := by
  simp only [isDigitByte_iff, isDigit_iff, String.utf8EncodeChar]
  change (∀ byte ∈ if c.toNat ≤ 127 then [UInt8.ofNat c.toNat] else _, _) ↔ _
  by_cases hascii : c.toNat ≤ 127
  · rw [if_pos hascii]
    simp only [List.mem_singleton, forall_eq, UInt8.toNat_ofNat']
    omega
  · -- the first byte of a longer form is too large for a digit, and so is the character
    rw [if_neg hascii]
    refine iff_of_false (fun h => ?_) (by omega)
    split_ifs at h
    all_goals
      have hfirst := h _ (List.mem_cons_self ..)
      rw [UInt8.toNat_ofNat'] at hfirst
      omega

/-- Characters are digits exactly if all their bytes are. -/
theorem forall_mem_utf8_iff {chars : List Char} :
    (∀ byte ∈ Text.utf8 chars, isDigitByte byte) ↔ ∀ c ∈ chars, isDigit c := by
  simp only [Text.utf8, List.mem_flatMap, forall_exists_index, and_imp, ← forall_isDigitByte_iff]
  exact ⟨fun h c hc byte hbyte => h byte c hc hbyte, fun h byte c hc hbyte => h c hc byte hbyte⟩

end Hex

end Attest
