import Attest.Text.Unprintable

/-!
# Quoted characters and texts

Error messages show a character between single quotes and a text between double quotes. Inside,
the quote that would end it, the backslash and the common control characters are written with a
backslash, and whatever has no shape of its own is written by its number.
-/

namespace Attest.Text

/-- A character as it stands between quotes of the given kind. -/
def escaped (quote c : Char) : List Char :=
  if c = '\x00' then ['\\', '0']
  else if c = '\t' then ['\\', 't']
  else if c = '\r' then ['\\', 'r']
  else if c = '\n' then ['\\', 'n']
  else if c = '\\' ∨ c = quote then ['\\', c]
  else if isUnprintable c then
    ['\\', 'u', '\x7b'] ++ Nat.toDigits 16 c.toNat ++ ['\x7d']
  else [c]

/-- Some characters between quotes of the given kind. -/
def quotedBy (quote : Char) (chars : List Char) : String :=
  String.ofList (quote :: chars.flatMap (escaped quote) ++ [quote])

/-- A character between single quotes. -/
def quotedChar (c : Char) : String := quotedBy '\'' [c]

/-- A text between double quotes. -/
def quoted (chars : List Char) : String := quotedBy '"' chars

end Attest.Text
