/-
The shortest decimal of a floating point number.

Among the decimals that read back as the number, those with the fewest digits are
kept, and of these the nearest to the number.  On every grid of decimals only the
two neighbours of the number have to be tried, because what reads back lies around
it without a gap.  `Binary64.text` shows the number: positional for exponents from
-4 to 15, with at least one digit after the point, and with an exponent of two or
more digits otherwise.
-/
import SvgDeck.Number.Binary64

namespace SvgDeck.Binary64

/-- The exponent of the first decimal digit of `n / d`. -/
def leadingExponent (n d : Nat) : Int :=
  if d ≤ n then (Text.ofNat (n / d)).length - 1
  else
    let k := (Text.ofNat (d / n)).length - 1
    if d ≤ n * Nat.pow 10 k then -(k : Int) else -(k : Int) - 1

/-- The neighbours of `n / d` among the decimals with `digits` digits, the nearer one first. -/
def neighbours (n d digits : Nat) : List Decimal :=
  let unit := leadingExponent n d - digits + 1
  let (a, b) := unscale 10 n d unit
  let below : Decimal := ⟨false, a / b, unit⟩
  let above : Decimal := ⟨false, a / b + 1, unit⟩
  let rest := 2 * (a % b)
  if a % b = 0 then [below]
  else if rest < b ∨ (rest = b ∧ a / b % 2 = 0) then [below, above]
  else [above, below]

/-- The decimal with no zero at its end. -/
def dropZeros (digits : Text) : Text :=
  (digits.reverse.dropWhile (· = CodePoint.ofChar '0')).reverse

/-- The digits of the shortest decimal that reads back as `m * 2 ^ e`, and the place of the point
in them. -/
def shortestDigits (m : Nat) (e : Int) : Text × Int :=
  let (n, d) := unscale 2 m 1 (-e)
  let value := ofRatio false n d
  let tries := (List.range 17).flatMap fun i => neighbours n d (i + 1)
  let exact : Decimal := if 0 ≤ e then ⟨false, n, 0⟩ else ⟨false, m * Nat.pow 5 (-e).toNat, e⟩
  let best := (tries.find? fun c => ofDecimal c = value).getD exact
  (dropZeros best.digits, best.exponent + best.digits.length)

/-- A positional numeral with at least one digit after its point. -/
def withFraction (t : Text) : Text := if t.contains '.' then t else t ++ ".0"

/-- An exponent with its sign and at least two digits. -/
def exponentText (n : Int) : Text :=
  let digits := Text.ofNat n.natAbs
  "e" ++ (if n < 0 then "-" else "+") ++
    List.replicate (2 - digits.length) (CodePoint.ofChar '0') ++ digits

/-- The shortest decimal of a positive number in print. -/
def magnitudeText (m : Nat) (e : Int) : Text :=
  let (digits, place) := shortestDigits m e
  if -4 < place ∧ place ≤ 16 then withFraction (Decimal.withPoint digits place)
  else
    let mantissa := if digits.length = 1 then digits else Decimal.withPoint digits 1
    mantissa ++ exponentText (place - 1)

/-- A minus sign for what is negative. -/
def signText (negative : Bool) : Text := if negative then "-" else []

/-- A number in print. -/
def text : Binary64 → Text
  | .nan => "nan"
  | .infinite s => signText s ++ "inf"
  | .finite s m e _ => signText s ++ if m = 0 then Text.ofString "0.0" else magnitudeText m e

end SvgDeck.Binary64
