/-
Numbers written with a sign and an exponent.

`Decimal.ofLiteral?` reads a numeral with an optional sign before it and an
optional exponent after it.  `Decimal.Reading.ofText?` reads what may stand for a
decimal in a document: surrounding blanks and all underscores are dropped, the
digits may be of any script, and infinities and not-a-numbers are told apart
from the finite numbers.
-/
import SvgDeck.Number.Decimal
import SvgDeck.Text.Blank

namespace SvgDeck

namespace Text

/-- Takes an optional sign off the front: whether it is a minus sign, and the rest. -/
def splitSign : Text → Bool × Text
  | [] => (false, [])
  | c :: rest =>
    if c = '-' then (true, rest)
    else if c = '+' then (false, rest)
    else (false, c :: rest)

/-- Every digit becomes the ASCII digit of the same value; all else stays. -/
def asciiDigits (t : Text) : Text :=
  t.flatMap fun c => (c.digit?.map ofNat).getD [c]

/-- The value of a text of one or more ASCII digits. -/
def natOfDigits? (t : Text) : Option Nat :=
  if t ≠ [] ∧ t.all CodePoint.isAsciiDigit then some (digitsValue t) else none

/-- The value of an exponent part: nothing, or `e` with an optional sign and digits. -/
def exponentPart? : Text → Option Int
  | [] => some 0
  | c :: rest =>
    if c = 'e' ∨ c = 'E' then
      let (negative, digits) := splitSign rest
      (natOfDigits? digits).map fun n => if negative then -(n : Int) else n
    else none

/-- The words for infinity and for not-a-number, in any case. -/
def isInfinityWord (t : Text) : Bool :=
  t.toAsciiLower == "inf" || t.toAsciiLower == "infinity"

end Text

namespace Decimal

/-- A numeral of ASCII digits with an optional sign before and an optional exponent after it. -/
def ofLiteral? (t : Text) : Option Decimal :=
  let (negative, body) := Text.splitSign t
  match Numeral.split? body with
  | none => none
  | some (numeral, rest) =>
    if numeral.text.any fun c => c.isDigit && !c.isAsciiDigit then none
    else
      (Text.exponentPart? rest).map fun e =>
        let d := ofNumeral numeral
        ⟨negative, d.coefficient, d.exponent + e⟩

/-- What a text for a decimal stands for. -/
inductive Reading where
  | finite (value : Decimal)
  | notFinite

/-- The largest exponent of a first digit, and the least exponent, that a decimal may be written
with. -/
def largestExponent : Int := 999999999999999999

def leastExponent : Int := -1999999999999999997

def isWithinLimits (d : Decimal) : Bool :=
  leastExponent ≤ d.exponent &&
    (if d.coefficient = 0 then d.exponent else d.adjusted) ≤ largestExponent

/-- Whether a text, its sign taken off, names an infinity or a not-a-number with its optional
digits. -/
def isSpecialWord (t : Text) : Bool :=
  let t := t.toAsciiLower
  let afterNan := if t.take 4 = "snan" then t.drop 4 else t.drop 3
  Text.isInfinityWord t ||
    ((t.take 3 = "nan" || t.take 4 = "snan") && afterNan.all CodePoint.isAsciiDigit)

/-- Reads a decimal as a document writes it. -/
def Reading.ofText? (t : Text) : Option Reading :=
  let t := Text.asciiDigits ((t.trim CodePoint.isBlank).filter (· ≠ CodePoint.ofChar '_'))
  if isSpecialWord (Text.splitSign t).2 then some .notFinite
  else
    match ofLiteral? t with
    | some d => if d.isWithinLimits then some (.finite d) else none
    | none => none

end Decimal

end SvgDeck
