import Attest.Json.Lexis
import Attest.Decimal.Shortest

/-!
# The values of numbers

A number without point and exponent is an integer if it fits into 64 bits, signed where a minus
stands in front; the negative zero is none. Every other number is a double, or out of range.

The significand of a double is gathered in 64 bits. Digits before the point that no longer fit
raise the exponent, digits after the point that no longer fit are dropped. The result is one
rounded conversion and one rounded multiplication or division by a power of ten.
-/

namespace Attest.Json

/-- What a number stands for. -/
inductive NumberValue where
  | integer (value : Int)
  /-- the magnitude is not negative -/
  | floating (negative : Bool) (magnitude : Float)

/-- Appends digits to a significand as long as it fits into 64 bits; returns the digits left
over. -/
def gather (significand : Nat) : List Char → Nat × List Char
  | [] => (significand, [])
  | c :: digits =>
    let next := significand * 10 + (c.toNat - '0'.toNat)
    if next < UInt64.size then gather next digits else (significand, c :: digits)

/-- The number that decimal digits spell. -/
def decimalValue (digits : List Char) : Nat :=
  digits.foldl (fun value c => value * 10 + (c.toNat - '0'.toNat)) 0

/-- The double nearest to a power of ten. -/
def powerOfTen (exponent : Nat) : Float := Float.ofScientific 1 false exponent

/-- A significand below `2 ^ 64` times a power of ten, or none if that is out of range. Below
`10 ^ -308` the division is done in two steps, and two steps down everything is zero. -/
def scaled? (significand : Nat) (exponent : Int) : Option Float :=
  let whole := (UInt64.ofNat significand).toFloat
  if 0 ≤ exponent then
    if exponent ≤ 308 then
      let product := whole * powerOfTen exponent.toNat
      if product.isInf then none else some product
    else if significand = 0 then some 0
    else none
  else if -308 ≤ exponent then some (whole / powerOfTen (-exponent).toNat)
  else if -616 ≤ exponent then
    some (whole / powerOfTen 308 / powerOfTen (-exponent - 308).toNat)
  else some 0

/-- The exponent that is written after the digits. -/
def Numeral.writtenExponent (numeral : Numeral) : Int :=
  match numeral.exponent with
  | none => 0
  | some (negative, digits) =>
    if negative then -decimalValue digits else decimalValue digits

/-- The magnitude of a number as a double, or none if it is out of range. -/
def Numeral.magnitude? (numeral : Numeral) : Option Float :=
  let fraction := numeral.fraction.getD []
  let (whole, excess) := gather 0 numeral.whole
  let (significand, dropped) := gather whole fraction
  let shift : Int := excess.length - (fraction.length - dropped.length : Nat)
  scaled? significand (shift + numeral.writtenExponent)

/-- The number as an integer, if it is written as one and fits into 64 bits. -/
def Numeral.integer? (numeral : Numeral) : Option Int :=
  let value := decimalValue numeral.whole
  if numeral.fraction.isSome ∨ numeral.exponent.isSome then none
  else if !numeral.negative then
    if value < UInt64.size then some value else none
  else if 0 < value ∧ Int64.minValue.toInt ≤ -value then some (-value)
  else none

/-- What a number stands for, or none if it is out of range. -/
def Numeral.value? (numeral : Numeral) : Option NumberValue :=
  match numeral.integer? with
  | some value => some (.integer value)
  | none => numeral.magnitude?.map (.floating numeral.negative)

/-! ## Numbers in words -/

/-- Decimal digits with a point after `position` of them: positional from `10 ^ -5` up to `10 ^ 16`
and always with a digit on both sides of the point, with a signed exponent otherwise. -/
def layOut (digits : List Char) (position : Int) : List Char :=
  if digits.length ≤ position ∧ position ≤ 16 then
    digits ++ List.replicate (position.toNat - digits.length) '0' ++ ['.', '0']
  else if 0 < position ∧ position ≤ 16 then
    digits.take position.toNat ++ '.' :: digits.drop position.toNat
  else if -5 < position ∧ position ≤ 0 then
    '0' :: '.' :: List.replicate (-position).toNat '0' ++ digits
  else
    let fraction := digits.drop 1
    let exponent := position - 1
    digits.take 1 ++ (if fraction = [] then [] else '.' :: fraction) ++ 'e' ::
      (if exponent < 0 then '-' else '+') :: Text.decimal exponent.natAbs

/-- A double that is not negative, with the fewest digits that read back. -/
def floatDigits (magnitude : Float) : List Char :=
  if magnitude == 0 then ['0', '.', '0']
  else
    let d := Decimal.shortest magnitude.toBits
    let digits := Text.decimal d.digits
    layOut digits (digits.length + d.exponent)

/-- A number in words, as error messages name it. -/
def NumberValue.describe : NumberValue → String
  | integer value =>
    "integer `" ++ (if value < 0 then "-" else "") ++ Text.number value.natAbs ++ "`"
  | floating negative magnitude =>
    "floating point `" ++ (if negative then "-" else "") ++
      String.ofList (floatDigits magnitude) ++ "`"

end Attest.Json
