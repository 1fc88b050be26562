import Attest.Hex
import Attest.Text

/-!
# The tokens of JSON

Each function here takes one token off the front of some characters and returns what it stands
for with the characters that follow, or says why there is no such token: the text is wrong at
this place, or it ends too early.
-/

namespace Attest.Json

/-- Why some characters are no token. -/
inductive Fault where
  /-- no token goes on like this -/
  | malformed
  /-- the text ends inside the token or before it -/
  | truncated
  deriving DecidableEq, Repr

/-- Whether a character may stand between tokens. -/
def isSpace (c : Char) : Bool := c = ' ' || c = '\t' || c = '\n' || c = '\r'

/-- What follows the space at the front. -/
def skipSpace (chars : List Char) : List Char := chars.dropWhile isSpace

/-- Takes one fixed character after any space. -/
def punctuation (mark : Char) (chars : List Char) : Except Fault (List Char) :=
  match skipSpace chars with
  | [] => .error .truncated
  | c :: rest => if c = mark then .ok rest else .error .malformed

/-- Takes the characters of a fixed word. -/
def word : (expected chars : List Char) → Except Fault (List Char)
  | [], chars => .ok chars
  | _ :: _, [] => .error .truncated
  | e :: expected, c :: chars => if c = e then word expected chars else .error .malformed

/-! ## Strings -/

/-- The character that a backslash and a letter stand for. -/
def shortEscape? (c : Char) : Option Char :=
  if c = '"' ∨ c = '\\' ∨ c = '/' then some c
  else if c = 'b' then some '\x08'
  else if c = 'f' then some '\x0c'
  else if c = 'n' then some '\n'
  else if c = 'r' then some '\r'
  else if c = 't' then some '\t'
  else none

/-- The 16-bit unit that four hexadecimal digits spell. -/
def unit? (a b c d : Char) : Option Nat := do
  let a ← Hex.value? a
  let b ← Hex.value? b
  let c ← Hex.value? c
  let d ← Hex.value? d
  pure (((a * 16 + b) * 16 + c) * 16 + d)

/-- Why fewer than four characters are no unit: a unit is four bytes, so the text ends too early
only if it has fewer bytes than that. -/
def shortUnit (chars : List Char) : Fault :=
  if Text.byteLength chars < 4 then .truncated else .malformed

/-- Whether a unit is the first half of a pair that makes one character. -/
def isLead (unit : Nat) : Bool := 0xd800 ≤ unit && unit ≤ 0xdbff

/-- Whether a unit is the second half of a pair. -/
def isTrail (unit : Nat) : Bool := 0xdc00 ≤ unit && unit ≤ 0xdfff

/-- The character that two halves make. -/
def pair (lead trail : Nat) : Char :=
  Char.ofNat (0x10000 + (lead - 0xd800) * 0x400 + (trail - 0xdc00))

/-- Reads a string after its opening quote. The characters read so far are passed along, the last
one first. Half a pair on its own is refused. -/
def stringTail (done : List Char) : List Char → Except Fault (List Char × List Char)
  | [] => .error .truncated
  | c :: rest =>
    if c = '"' then .ok (done.reverse, rest)
    else if c < ' ' then .error .malformed
    else if c ≠ '\\' then stringTail (c :: done) rest
    else
      match rest with
      | [] => .error .truncated
      | e :: rest =>
        if e = 'u' then
          match rest with
          | h₁ :: h₂ :: h₃ :: h₄ :: rest =>
            match unit? h₁ h₂ h₃ h₄ with
            | none => .error .malformed
            | some unit =>
              if isTrail unit then .error .malformed
              else if isLead unit then
                match rest with
                | [] => .error .truncated
                | [b] => if b = '\\' then .error .truncated else .error .malformed
                | b :: u :: rest =>
                  if b ≠ '\\' ∨ u ≠ 'u' then .error .malformed
                  else
                    match rest with
                    | k₁ :: k₂ :: k₃ :: k₄ :: rest =>
                      match unit? k₁ k₂ k₃ k₄ with
                      | none => .error .malformed
                      | some trail =>
                        if isTrail trail then stringTail (pair unit trail :: done) rest
                        else .error .malformed
                    | short => .error (shortUnit short)
              else stringTail (Char.ofNat unit :: done) rest
          | short => .error (shortUnit short)
        else
          match shortEscape? e with
          | some d => stringTail (d :: done) rest
          | none => .error .malformed

/-- Passes over a string after its opening quote. Its escapes have to be well formed, but halves
of pairs may stand alone. -/
def skipStringTail : List Char → Except Fault (List Char)
  | [] => .error .truncated
  | c :: rest =>
    if c = '"' then .ok rest
    else if c < ' ' then .error .malformed
    else if c ≠ '\\' then skipStringTail rest
    else
      match rest with
      | [] => .error .truncated
      | e :: rest =>
        if e = 'u' then
          match rest with
          | h₁ :: h₂ :: h₃ :: h₄ :: rest =>
            if (unit? h₁ h₂ h₃ h₄).isSome then skipStringTail rest else .error .malformed
          | short => .error (shortUnit short)
        else if (shortEscape? e).isSome then skipStringTail rest
        else .error .malformed

/-! ## Numbers -/

/-- The parts of a number as they are written. -/
structure Numeral where
  /-- whether a minus sign stands in front -/
  negative : Bool
  /-- the digits before the point -/
  whole : List Char
  /-- the digits after the point, if there is one -/
  fraction : Option (List Char)
  /-- whether the exponent is negative, and its digits, if there is one -/
  exponent : Option (Bool × List Char)
  deriving DecidableEq, Repr

/-- Takes at least one digit; what is said where the text ends instead is given. -/
def digits (atEnd : Fault) (chars : List Char) : Except Fault (List Char × List Char) :=
  match chars with
  | [] => .error atEnd
  | c :: _ =>
    if c.isDigit then .ok (chars.takeWhile Char.isDigit, chars.dropWhile Char.isDigit)
    else .error .malformed

/-- Takes the digits before the point: a single zero, or a run that starts with another digit. -/
def wholePart (atEnd : Fault) (chars : List Char) : Except Fault (List Char × List Char) := do
  let (run, rest) ← digits atEnd chars
  if run.head? = some '0' ∧ run ≠ ['0'] then .error .malformed else .ok (run, rest)

/-- Takes a point and the digits after it, if a point follows. -/
def fractionPart (atEnd : Fault) (chars : List Char) :
    Except Fault (Option (List Char) × List Char) :=
  match chars with
  | '.' :: rest => do
    let (run, rest) ← digits atEnd rest
    pure (some run, rest)
  | _ => .ok (none, chars)

/-- Takes a sign, if one follows; true for a minus. -/
def signPart : List Char → Bool × List Char
  | '-' :: rest => (true, rest)
  | '+' :: rest => (false, rest)
  | chars => (false, chars)

/-- Takes an exponent, if one follows. -/
def exponentPart (atEnd : Fault) (chars : List Char) :
    Except Fault (Option (Bool × List Char) × List Char) :=
  match chars with
  | [] => .ok (none, [])
  | c :: rest =>
    if c = 'e' ∨ c = 'E' then do
      let (negative, rest) := signPart rest
      let (run, rest) ← digits atEnd rest
      pure (some (negative, run), rest)
    else .ok (none, chars)

/-- Takes a number. -/
def numeral (atEnd : Fault) (chars : List Char) : Except Fault (Numeral × List Char) := do
  let (negative, rest) := match chars with
    | '-' :: rest => (true, rest)
    | _ => (false, chars)
  let (whole, rest) ← wholePart atEnd rest
  let (fraction, rest) ← fractionPart atEnd rest
  let (exponent, rest) ← exponentPart atEnd rest
  pure (⟨negative, whole, fraction, exponent⟩, rest)

/-- Whether a character can start a number. -/
def startsNumeral (c : Char) : Bool := c = '-' || c.isDigit

end Attest.Json
