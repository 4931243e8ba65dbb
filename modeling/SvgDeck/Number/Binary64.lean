/-
Binary floating point numbers of 64 bits.

A finite number is `± significand * 2 ^ exponent` in its only canonical form, so
that equal numbers are equal as data, apart from the two zeros.  `ofRatio` rounds
an exact quotient to the nearest number, a half to the even significand; all
other ways to make a number go through it, so each is rounded once.
-/
import SvgDeck.Number.Literal

namespace SvgDeck

/-- The least number of 53 bits. -/
def leastSignificand : Nat := 0x10000000000000

/-- The pairs that stand for finite numbers: 53 bits, of which the first is set unless the exponent
is the least. -/
def IsCanonical (significand : Nat) (exponent : Int) : Prop :=
  significand < 2 * leastSignificand ∧ -1074 ≤ exponent ∧ exponent ≤ 971 ∧
    (leastSignificand ≤ significand ∨ exponent = -1074)

instance (m : Nat) (e : Int) : Decidable (IsCanonical m e) := by
  unfold IsCanonical
  infer_instance

inductive Binary64 where
  | nan
  | infinite (negative : Bool)
  | finite (negative : Bool) (significand : Nat) (exponent : Int)
      (canonical : IsCanonical significand exponent)
deriving DecidableEq

namespace Binary64

def zero (negative : Bool) : Binary64 := .finite negative 0 (-1074) (by decide)

/-- The quotient rounded to a whole number, a half to even. -/
def roundQuotient (n d : Nat) : Nat :=
  let rest := 2 * (n % d)
  if rest < d ∨ (rest = d ∧ n / d % 2 = 0) then n / d else n / d + 1

/-- The terms of a ratio whose value is `n / d` divided by `base ^ e`. -/
def unscale (base n d : Nat) (e : Int) : Nat × Nat :=
  if 0 ≤ e then (n, d * Nat.pow base e.toNat) else (n * Nat.pow base (-e).toNat, d)

/-- The exponent of the unit in the last of 53 bits of `n / d`, or the least exponent if that is
larger. -/
def unitExponent (n d : Nat) : Int :=
  let k : Int := n.log2 - d.log2
  let (a, b) := unscale 2 n d k
  max (-1074) (if b ≤ a then k - 52 else k - 53)

/-- The number nearest to `± n / d`. -/
def ofRatio (negative : Bool) (n d : Nat) : Binary64 :=
  if n = 0 then zero negative
  else
    let e := unitExponent n d
    let (a, b) := unscale 2 n d e
    let m := roundQuotient a b
    let (m, e) := if m = 2 * leastSignificand then (leastSignificand, e + 1) else (m, e)
    if h : IsCanonical m e then .finite negative m e h else .infinite negative

/-- The number nearest to a whole number; none if that is beyond all finite numbers. -/
def ofInt? (n : Int) : Option Binary64 :=
  match ofRatio (n < 0) n.natAbs 1 with
  | .infinite _ => none
  | x => some x

/-- The number nearest to a decimal. -/
def ofDecimal (d : Decimal) : Binary64 :=
  if d.coefficient = 0 ∨ d.adjusted < -400 then zero d.negative
  else if 400 < d.adjusted then .infinite d.negative
  else
    let (n, den) := unscale 10 d.coefficient 1 (-d.exponent)
    ofRatio d.negative n den

/-- Reads the words for the special numbers in any case, or a literal. -/
def ofText? (t : Text) : Option Binary64 :=
  let (negative, word) := Text.splitSign t
  if Text.isInfinityWord word then some (.infinite negative)
  else if word.toAsciiLower = "nan" then some .nan
  else (Decimal.ofLiteral? t).map ofDecimal

def one : Binary64 := ofRatio false 1 1

def neg : Binary64 → Binary64
  | .nan => .nan
  | .infinite s => .infinite !s
  | .finite s m e h => .finite (!s) m e h

/-- The value in units of `2 ^ exponent`, for an exponent not above the number's own. -/
def inUnits (negative : Bool) (significand : Nat) (e exponent : Int) : Int :=
  let n : Int := (significand * Nat.pow 2 (e - exponent).toNat : Nat)
  if negative then -n else n

/-- The sum, rounded once. -/
def add : Binary64 → Binary64 → Binary64
  | .nan, _ => .nan
  | _, .nan => .nan
  | .infinite s, .infinite t => if s = t then .infinite s else .nan
  | .infinite s, _ => .infinite s
  | _, .infinite t => .infinite t
  | .finite s m e _, .finite t n f _ =>
    let unit := min e f
    let sum := inUnits s m e unit + inUnits t n f unit
    let (a, b) := unscale 2 sum.natAbs 1 (-unit)
    ofRatio (if sum = 0 then s && t else sum < 0) a b

/-- The product, rounded once. -/
def mul : Binary64 → Binary64 → Binary64
  | .nan, _ => .nan
  | _, .nan => .nan
  | .infinite s, .infinite t => .infinite (s != t)
  | .infinite s, .finite t n _ _ => if n = 0 then .nan else .infinite (s != t)
  | .finite s m _ _, .infinite t => if m = 0 then .nan else .infinite (s != t)
  | .finite s m e _, .finite t n f _ =>
    let (a, b) := unscale 2 (m * n) 1 (-(e + f))
    ofRatio (s != t) a b

/-- The whole number that a number is equal to, if there is one. -/
def toInt? : Binary64 → Option Int
  | .finite s m e _ =>
    let (a, b) := unscale 2 m 1 (-e)
    if a % b = 0 then some (if s then -(a / b : Nat) else (a / b : Nat)) else none
  | _ => none

end Binary64

end SvgDeck
