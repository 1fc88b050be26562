import Attest.Bytes

/-!
# Hexadecimal text

Every byte is written as two lowercase digits, the high half first. Reading takes either case.

The main statements are `Hex.decode?_encode` (what is written reads back) and
`Hex.length_encode`.
-/

namespace Attest.Hex

/-- The value of one digit, of either case. -/
def value? (c : Char) : Option Nat :=
  if '0' ≤ c ∧ c ≤ '9' then some (c.toNat - '0'.toNat)
  else if 'a' ≤ c ∧ c ≤ 'f' then some (c.toNat - 'a'.toNat + 10)
  else if 'A' ≤ c ∧ c ≤ 'F' then some (c.toNat - 'A'.toNat + 10)
  else none

/-- Whether a character is a digit of either case. -/
def isDigit (c : Char) : Bool := (value? c).isSome

/-- Whether a character is a digit as `encode` writes it. -/
def isLowerDigit (c : Char) : Bool := ('0' ≤ c ∧ c ≤ '9') ∨ ('a' ≤ c ∧ c ≤ 'f')

/-- The two digits of each byte, the high half first. -/
def encode (bytes : Bytes) : List Char :=
  bytes.flatMap fun byte => [Nat.digitChar (byte.toNat / 16), Nat.digitChar (byte.toNat % 16)]

/-- Reads digits in pairs; refuses an odd number of characters and any character that is no
digit. -/
def decode? : List Char → Option Bytes
  | [] => some []
  | [_] => none
  | high :: low :: rest => do
    let h ← value? high
    let l ← value? low
    let bytes ← decode? rest
    pure (UInt8.ofNat (16 * h + l) :: bytes)

/-- The digits of some bytes, as a text. -/
def text (bytes : Bytes) : String := String.ofList (encode bytes)

/-- A digit character stands for the value it is written for. -/
theorem value?_digitChar {value : Nat} (h : value < 16) :
    value? (Nat.digitChar value) = some value := by
  have := List.mem_range.2 h
  revert value
  decide

@[simp] theorem encode_cons (byte : UInt8) (bytes : Bytes) :
    encode (byte :: bytes) =
      Nat.digitChar (byte.toNat / 16) :: Nat.digitChar (byte.toNat % 16) :: encode bytes := rfl

@[simp] theorem length_encode (bytes : Bytes) : (encode bytes).length = 2 * bytes.length := by
  induction bytes with
  | nil => rfl
  | cons byte bytes ih => simp [ih]; omega

/-- **Reading inverts writing.** -/
theorem decode?_encode (bytes : Bytes) : decode? (encode bytes) = some bytes := by
  induction bytes with
  | nil => rfl
  | cons byte bytes ih =>
    have hlt := byte.toNat_lt
    have hsplit : 16 * (byte.toNat / 16) + byte.toNat % 16 = byte.toNat := by omega
    rw [encode_cons, decode?, value?_digitChar (by omega), value?_digitChar (by omega), ih]
    change some (UInt8.ofNat (16 * (byte.toNat / 16) + byte.toNat % 16) :: bytes) = _
    rw [hsplit, UInt8.ofNat_toNat]

end Attest.Hex
