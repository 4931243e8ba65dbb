/-
Decimal numbers, exact and as written.

A decimal is a sign, a coefficient and a power of ten, so `2`, `2.0` and `2.00`
are equal in value and different as decimals.  `Decimal.text` shows a decimal
with its exponent where that is shorter, `Decimal.positional` never does, and
`Decimal.minus?` is the exact difference within the exponent limits.
-/
import SvgDeck.Number.Numeral

namespace SvgDeck

/-- The number `± coefficient * 10 ^ exponent`. -/
structure Decimal where
  negative : Bool
  coefficient : Nat
  exponent : Int
deriving DecidableEq

namespace Decimal

/-- A whole number as a decimal. -/
def ofInt (n : Int) : Decimal := ⟨n < 0, n.natAbs, 0⟩

/-- The value of a numeral, with one coefficient digit for each digit written. -/
def ofNumeral (n : Numeral) : Decimal :=
  match n.fraction with
  | none => ⟨false, Text.digitsValue n.whole, 0⟩
  | some f => ⟨false, Text.digitsValue (n.whole ++ f), -f.length⟩

/-- The digits of the coefficient. -/
def digits (d : Decimal) : Text := Text.ofNat d.coefficient

/-- The exponent of the first digit. -/
def adjusted (d : Decimal) : Int := d.exponent + d.digits.length - 1

/-- The coefficient that `d` has at an exponent not above its own, with its sign. -/
def scaled (d : Decimal) (exponent : Int) : Int :=
  let n : Int := (d.coefficient * Nat.pow 10 (d.exponent - exponent).toNat : Nat)
  if d.negative then -n else n

/-- Order by value. -/
def lt (a b : Decimal) : Bool :=
  let e := min a.exponent b.exponent
  a.scaled e < b.scaled e

/-- Whether the value is below zero; no zero is. -/
def isBelowZero (d : Decimal) : Bool := d.negative && d.coefficient != 0

/-! ### Printing -/

def sign (d : Decimal) : Text := if d.negative then "-" else []

/-- `digits` with the decimal point after the first `place` of them; zeros fill the gap on either
side. -/
def withPoint (digits : Text) (place : Int) : Text :=
  if place ≤ 0 then
    "0." ++ List.replicate (-place).toNat (CodePoint.ofChar '0') ++ digits
  else if digits.length ≤ place.toNat then
    digits ++ List.replicate (place.toNat - digits.length) (CodePoint.ofChar '0')
  else digits.take place.toNat ++ "." ++ digits.drop place.toNat

/-- The decimal with every digit in its place; a zero has no digits before its units. -/
def positional (d : Decimal) : Text :=
  if d.coefficient = 0 ∧ 0 < d.exponent then d.sign ++ "0"
  else if d.exponent = 0 then d.sign ++ d.digits
  else d.sign ++ withPoint d.digits (d.exponent + d.digits.length)

/-- A whole number with its sign, plus included. -/
def signed (n : Int) : Text := if n < 0 then Text.ofInt n else "+" ++ Text.ofInt n

/-- The decimal as shown to a reader: positional if no zero has to be filled in on the right and at
most five between the point and the first digit, and with an exponent otherwise. -/
def text (d : Decimal) : Text :=
  let place := d.exponent + d.digits.length
  if d.exponent ≤ 0 ∧ -6 < place then d.positional
  else
    let mantissa := if d.digits.length = 1 then d.digits else withPoint d.digits 1
    d.sign ++ mantissa ++ "E" ++ signed (place - 1)

/-! ### Difference -/

/-- The largest exponent that a first digit may have in the result of an operation. -/
def exponentLimit : Int := 999999

/-- The coefficient without its last `count` digits, rounded to the nearest, a half to even. -/
def dropDigits (coefficient count : Nat) : Nat :=
  let unit := Nat.pow 10 count
  let kept := coefficient / unit
  let rest := 2 * (coefficient % unit)
  if rest < unit ∨ (rest = unit ∧ kept % 2 = 0) then kept else kept + 1

/-- The result of an operation that is carried out with `precision` digits: too large a value is
none, and the digits of too small a value end at the least exponent. -/
def bounded? (precision : Int) (d : Decimal) : Option Decimal :=
  let least := -exponentLimit - precision + 1
  if d.coefficient = 0 then some { d with exponent := min (max d.exponent least) exponentLimit }
  else if exponentLimit < d.adjusted then none
  else if d.exponent < least then
    some ⟨d.negative, dropDigits d.coefficient (least - d.exponent).toNat, least⟩
  else some d

/-- The digits that a difference is computed with, enough for all of both operands. -/
def differencePrecision (a b : Decimal) : Int :=
  max 28 (max a.adjusted b.adjusted - min a.exponent b.exponent + 2)

/-- The most digits that an operation can be carried out with. -/
def precisionLimit : Int := 999999999999999999

/-- The difference `a - b`; a zero is negative only if `a` is a negative and `b` a positive zero. -/
def minus? (a b : Decimal) : Option Decimal :=
  let e := min a.exponent b.exponent
  let n := a.scaled e - b.scaled e
  let bothZero := a.coefficient = 0 ∧ b.coefficient = 0
  let negative : Bool := if bothZero then a.negative && !b.negative else n < 0
  bounded? (differencePrecision a b) ⟨negative, n.natAbs, e⟩

end Decimal

end SvgDeck
