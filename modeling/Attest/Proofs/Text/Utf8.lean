import Mathlib
import Attest.Text

/-!
# Text as UTF-8

Some bytes spell one text at most, and a text is spelled by its own bytes only. A character of ASCII
is the one byte with its number; all other characters are made of larger bytes, so that looking for
such a character among the bytes of a text is looking for it in the text.

The main statements are `Text.ofUtf8?_eq_some_iff` and `Text.mem_utf8_iff`.
-/

namespace Attest.Text

@[simp] theorem utf8_nil : utf8 [] = [] := rfl

theorem utf8_cons (c : Char) (chars : List Char) :
    utf8 (c :: chars) = String.utf8EncodeChar c ++ utf8 chars := rfl

theorem utf8_append (a b : List Char) : utf8 (a ++ b) = utf8 a ++ utf8 b :=
  List.flatMap_append

theorem utf8_eq_nil_iff {chars : List Char} : utf8 chars = [] ↔ chars = [] := by
  cases chars with
  | nil => simp
  | cons c chars => simp [utf8_cons, String.utf8EncodeChar_ne_nil]

theorem bytes_ofList (chars : List Char) : bytes (String.ofList chars) = utf8 chars := by
  rw [bytes, String.toList_ofList]

/-- **Bytes spell a text** exactly if they are the bytes of the text. -/
theorem ofUtf8?_eq_some_iff {given : Bytes} {text : String} :
    ofUtf8? given = some text ↔ bytes text = given := by
  constructor
  · intro h
    rw [ofUtf8?, String.fromUTF8?] at h
    split_ifs at h with hvalid
    obtain rfl := Option.some.inj h
    have harray : (bytes (String.fromUTF8 given.toByteArray hvalid)).toByteArray =
        given.toByteArray := toByteArray_bytes _
    have hdata := congrArg (·.data.toList) harray
    simpa using hdata
  · rintro rfl
    exact ofUtf8?_bytes text

/-! ## Characters of ASCII -/

/-- A byte below 128 is a character of its own. -/
theorem toNat_eq_of_mem_utf8EncodeChar {c : Char} {byte : UInt8}
    (h : byte ∈ String.utf8EncodeChar c) (hlt : byte.toNat < 128) : c.toNat = byte.toNat := by
  simp only [String.utf8EncodeChar] at h
  change byte ∈ if c.toNat ≤ 127 then [UInt8.ofNat c.toNat] else _ at h
  by_cases hascii : c.toNat ≤ 127
  · rw [if_pos hascii, List.mem_singleton] at h
    rw [h, UInt8.toNat_ofNat']
    omega
  · -- all bytes of a longer form are 128 or more
    rw [if_neg hascii] at h
    exfalso
    split_ifs at h
    all_goals
      simp only [List.mem_cons, List.not_mem_nil, or_false] at h
      rcases h with rfl | rfl | rfl | rfl
      all_goals
        rw [UInt8.toNat_ofNat'] at hlt
        omega

theorem utf8EncodeChar_of_lt {c : Char} (h : c.toNat < 128) :
    String.utf8EncodeChar c = [UInt8.ofNat c.toNat] := by
  simp only [String.utf8EncodeChar]
  exact if_pos (Nat.le_of_lt_succ h)

/-- **A character of ASCII is found among the bytes** of some characters exactly if it is one of
them. -/
theorem mem_utf8_iff {c : Char} {chars : List Char} (h : c.toNat < 128) :
    UInt8.ofNat c.toNat ∈ utf8 chars ↔ c ∈ chars := by
  have hbyte : (UInt8.ofNat c.toNat).toNat = c.toNat := by
    rw [UInt8.toNat_ofNat']
    omega
  rw [utf8, List.mem_flatMap]
  constructor
  · rintro ⟨d, hd, hmem⟩
    have hnat := toNat_eq_of_mem_utf8EncodeChar hmem (by omega)
    rw [hbyte, Char.toNat_inj] at hnat
    rwa [← hnat]
  · intro hc
    refine ⟨c, hc, ?_⟩
    rw [utf8EncodeChar_of_lt h]
    exact List.mem_singleton_self _

/-- A character of ASCII is the last byte of some characters only if it is the last of them. -/
theorem exists_concat_of_utf8 {c : Char} {chars : List Char} {init : Bytes} (h : c.toNat < 128)
    (hlast : utf8 chars = init ++ [UInt8.ofNat c.toNat]) : ∃ v, chars = v ++ [c] := by
  rcases List.eq_nil_or_concat' chars with rfl | ⟨v, d, rfl⟩
  · exact absurd hlast.symm (by simp)
  · have hencode : UInt8.ofNat c.toNat ∈ utf8 [d] := by
      have hd : utf8 [d] ≠ [] := mt utf8_eq_nil_iff.1 (List.cons_ne_nil _ _)
      have hsome := congrArg List.getLast? hlast
      rw [utf8_append, List.getLast?_append_of_ne_nil _ hd, List.getLast?_concat] at hsome
      exact List.mem_of_getLast? hsome
    rw [mem_utf8_iff h, List.mem_singleton] at hencode
    exact ⟨v, by rw [hencode]⟩

end Attest.Text
