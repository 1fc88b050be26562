import Attest.Bytes

/-!
# Text as bytes, and casing

Texts are measured, hashed and signed as their UTF-8 bytes. Letters are compared and changed
within ASCII only: no other letter has a case here.
-/

namespace Attest.Text

/-- The UTF-8 bytes of some characters. -/
def utf8 (chars : List Char) : Bytes := chars.flatMap String.utf8EncodeChar

/-- The UTF-8 bytes of a text. -/
def bytes (text : String) : Bytes := utf8 text.toList

/-- How many bytes some characters take. -/
def byteLength (chars : List Char) : Nat := (utf8 chars).length

/-- The text that the bytes spell, if they are valid UTF-8. -/
def ofUtf8? (bytes : Bytes) : Option String := String.fromUTF8? bytes.toByteArray

/-- The decimal digits of a number, without leading zeros. -/
def decimal (value : Nat) : List Char := Nat.toDigits 10 value

/-- A number in decimal, as a text. -/
def number (value : Nat) : String := String.ofList (decimal value)

/-- Some characters with the ASCII letters in lower case. -/
def lower (chars : List Char) : List Char := chars.map Char.toLower

/-- Whether two runs of characters are equal up to the case of ASCII letters. -/
def eqIgnoringCase (a b : List Char) : Bool := lower a = lower b

/-- What follows a leading `0x`. -/
def afterMarker? : List Char → Option (List Char)
  | '0' :: 'x' :: rest => some rest
  | _ => none

/-- The bytes of a text as an array are those that the text is stored in. -/
theorem toByteArray_bytes (text : String) : (bytes text).toByteArray = text.toByteArray := by
  have h := congrArg String.toByteArray (String.ofList_toList (s := text))
  rwa [String.toByteArray_ofList] at h

/-- What is written in text is what its bytes spell. -/
theorem ofUtf8?_bytes (text : String) : ofUtf8? (bytes text) = some text := by
  unfold ofUtf8? String.fromUTF8?
  rw [toByteArray_bytes, dif_pos text.isValidUTF8]
  rfl

end Attest.Text
