/-!
# Shortest decimals

The shortest decimal of a positive finite double is the one with the fewest digits among those
that read back as it: those in the interval of reals that round to it, whose ends belong to it
exactly if its significand is even. Of two that are equally short the nearer one is taken.

Everything is computed exactly on fractions of natural numbers.
-/

namespace Attest

/-- A positive decimal number: `digits * 10 ^ exponent`. -/
structure Decimal where
  digits : Nat
  exponent : Int
  deriving DecidableEq, Repr

namespace Decimal

/-- A fraction of natural numbers. -/
structure Fraction where
  numerator : Nat
  denominator : Nat

/-- The fraction `value * 2 ^ exponent`. -/
def Fraction.binary (value : Nat) (exponent : Int) : Fraction :=
  if 0 ≤ exponent then ⟨value * Nat.pow 2 exponent.toNat, 1⟩
  else ⟨value, Nat.pow 2 (-exponent).toNat⟩

/-- The fraction `value * 10 ^ exponent`. -/
def Fraction.decimal (value : Nat) (exponent : Int) : Fraction :=
  if 0 ≤ exponent then ⟨value * Nat.pow 10 exponent.toNat, 1⟩
  else ⟨value, Nat.pow 10 (-exponent).toNat⟩

/-- Whether one fraction is less than another. -/
def Fraction.less (a b : Fraction) : Bool :=
  a.numerator * b.denominator < b.numerator * a.denominator

/-- The number of a decimal. -/
def fraction (d : Decimal) : Fraction := .decimal d.digits d.exponent

/-- A number with the interval of reals that round to it. -/
structure Rounding where
  value : Fraction
  low : Fraction
  high : Fraction
  /-- whether the ends belong to the interval -/
  closed : Bool

/-- Whether a decimal lies in the interval. -/
def Rounding.holds (r : Rounding) (d : Decimal) : Bool :=
  if r.closed then !d.fraction.less r.low && !r.high.less d.fraction
  else r.low.less d.fraction && d.fraction.less r.high

/-- The significand of a double that is written by no bit of it: `2 ^ 52`. -/
def hiddenBit : Nat := 0x10000000000000

/-- A double from its bits, with the interval of reals that round to it. -/
def Rounding.ofBits (bits : UInt64) : Rounding :=
  let field := (bits.toNat / hiddenBit) % 2048
  let tail := bits.toNat % hiddenBit
  let significand := if field = 0 then tail else hiddenBit + tail
  let exponent : Int := (max field 1 : Nat) - 1077
  -- below a power of two the doubles lie twice as close
  let below := if tail = 0 ∧ 1 < field then 1 else 2
  { value := .binary (4 * significand) exponent
    low := .binary (4 * significand - below) exponent
    high := .binary (4 * significand + 2) exponent
    closed := tail % 2 = 0 }

/-- The least `e` in an ascending run of the given length with the fraction below `10 ^ e`. -/
def magnitude (value : Fraction) : (length : Nat) → (e : Int) → Int
  | 0, e => e
  | length + 1, e =>
    if value.less (.decimal 1 e) then e else magnitude value length (e + 1)

/-- The whole part of `value / 10 ^ exponent`. -/
def wholeUnits (value : Fraction) (exponent : Int) : Nat :=
  let unit := Fraction.decimal 1 exponent
  (value.numerator * unit.denominator) / (value.denominator * unit.numerator)

/-- The nearer to the value of its two neighbours on the grid of multiples of `10 ^ exponent`,
among those in the interval. -/
def onGrid? (r : Rounding) (exponent : Int) : Option Decimal :=
  let whole := wholeUnits r.value exponent
  let lower : Decimal := ⟨whole, exponent⟩
  let upper : Decimal := ⟨whole + 1, exponent⟩
  -- the middle between the two neighbours
  let middle : Fraction :=
    ⟨lower.fraction.numerator + upper.fraction.numerator, 2 * lower.fraction.denominator⟩
  match r.holds lower && 0 < whole, r.holds upper with
  | true, true =>
    if r.value.less middle then some lower
    else if middle.less r.value then some upper
    else if whole % 2 = 0 then some lower else some upper
  | true, false => some lower
  | false, true => some upper
  | false, false => none

/-- The decimal on the coarsest grid that has one, from a grid on downwards. -/
def coarsest (r : Rounding) : (grids : Nat) → (exponent : Int) → Decimal
  | 0, exponent => ⟨wholeUnits r.value exponent, exponent⟩
  | grids + 1, exponent =>
    match onGrid? r exponent with
    | some d => d
    | none => coarsest r grids (exponent - 1)

/-- The shortest decimal of the positive finite double with the given bits; its last digit is not
zero. -/
def shortest (bits : UInt64) : Decimal :=
  let r := Rounding.ofBits bits
  let d := coarsest r 17 (magnitude r.value 650 (-330) - 1)
  -- the upper neighbour on the first grid can be the next power of ten
  if d.digits % 10 = 0 then ⟨d.digits / 10, d.exponent + 1⟩ else d

end Decimal

end Attest
