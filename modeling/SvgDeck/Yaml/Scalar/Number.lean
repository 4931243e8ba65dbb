/-
Numbers and truth values.

Whole numbers are written in decimal, octal, hexadecimal, binary or in base 60, and
floating point numbers in decimal or in base 60.  Underscores do not count.  The forms
that a text without a tag must have to be a number are stricter than what a tagged text
may hold.
-/
import SvgDeck.Number.Binary64
import SvgDeck.Yaml.Cursor
import SvgDeck.Yaml.Fault

namespace SvgDeck.Yaml

/-! ### Forms -/

def isDigitOrGroup (c : CodePoint) : Bool := c.isAsciiDigit || oneOf "_" c

def dropSign (t : Text) : Text := (Text.splitSign t).2

/-- A digit, then digits and underscores. -/
def isGroupedNat (t : Text) : Bool := t.head?.any CodePoint.isAsciiDigit && t.all isDigitOrGroup

/-- A number below 60 in one or two digits. -/
def isSixtieth (t : Text) : Bool :=
  t.all CodePoint.isAsciiDigit &&
    (t.length == 1 || (t.length == 2 && t.head?.any (·.isBetween 0x30 0x35)))

/-- A row of two or more parts in base 60, of which `first` holds of the first. -/
def isSexagesimal (first : Text → Bool) (t : Text) : Bool :=
  match t.splitOn (CodePoint.ofChar ':') with
  | a :: b :: more => first a && (b :: more).all isSixtieth
  | _ => false

/-- Whether `digits` follow in a text that begins with `front`, at least one of them. -/
def isRadix (front : String) (isPart : CodePoint → Bool) (t : Text) : Bool :=
  match Text.after? front t with
  | some digits => digits ≠ [] && digits.all isPart
  | none => false

/-- A row of digits and underscores that starts with a digit other than zero. -/
def isPositive (t : Text) : Bool := isGroupedNat t && t.head? ≠ some (CodePoint.ofChar '0')

/-- Whether a text without a tag is a whole number. -/
def isIntForm (t : Text) : Bool :=
  let body := dropSign t
  isRadix "0b" (oneOf "01_") body || isRadix "0" (oneOf "01234567_") body || body = Text.ofString "0" ||
    isPositive body || isRadix "0x" (fun c => c.hexDigit?.isSome || oneOf "_" c) body ||
    isSexagesimal isPositive body

/-- Nothing, or an exponent with its sign. -/
def isExponentForm : Text → Bool
  | [] => true
  | e :: t =>
    oneOf "eE" e && t.head?.any (oneOf "+-") && t.drop 1 ≠ [] && (t.drop 1).all CodePoint.isAsciiDigit

/-- The parts of a text before and behind its first point. -/
def splitPoint (t : Text) : Option (Text × Text) :=
  let whole := t.takeWhile (· ≠ CodePoint.ofChar '.')
  if whole.length = t.length then none else some (whole, t.drop (whole.length + 1))

/-- Whether a text without a tag is a floating point number. -/
def isFloatForm (t : Text) : Bool :=
  let body := dropSign t
  let infinities : List Text := [".inf", ".Inf", ".INF"]
  let nans : List Text := [".nan", ".NaN", ".NAN"]
  infinities.contains body || nans.contains t ||
    match splitPoint body with
    | none => false
    | some (whole, behind) =>
      let fraction := behind.takeWhile isDigitOrGroup
      let exponent := behind.dropWhile isDigitOrGroup
      if whole = [] then body = t && isGroupedNat fraction && isExponentForm exponent
      else
        (isGroupedNat whole && isExponentForm exponent) ||
          (isSexagesimal isGroupedNat whole && exponent = [])

/-! ### Whole numbers -/

/-- The letter that announces a base behind a zero. -/
def baseLetters (base : Nat) : String :=
  if base = 2 then "bB" else if base = 8 then "oO" else if base = 16 then "xX" else ""

/-- Drops the zero and the letter that announce a base. -/
def dropBase (base : Nat) : Text → Text
  | z :: c :: t => if z = '0' ∧ oneOf (baseLetters base) c then t else z :: c :: t
  | t => t

/-- The value of a digit that is below a base. -/
def digitBelow? (base : Nat) (c : CodePoint) : Option Nat :=
  c.hexDigit?.bind fun d => if d < base then some d else none

/-- Reads a whole number with blanks around it in the given base. -/
def readInt (base : Nat) (t : Text) : Except ScalarFault Int :=
  let (negative, body) := Text.splitSign (Text.asciiDigits (t.trim CodePoint.isBlank))
  let body := dropBase base body
  match body.mapM (digitBelow? base) with
  | none => .error (.notInteger base t)
  | some [] => .error (.notInteger base t)
  | some digits =>
    if base = 10 ∧ digitLimit < digits.length then .error (.tooManyDigits digits.length)
    else
      let n := digits.foldl (fun n d => base * n + d) 0
      .ok (if negative then -(n : Int) else n)

/-- The text without underscores, in three parts: whether it has a minus sign, and the rest. -/
def splitNumber (t : Text) : Except ScalarFault (Bool × Text) :=
  match t.filter (· ≠ CodePoint.ofChar '_') with
  | [] => .error .emptyNumber
  | t => .ok (Text.splitSign t)

/-- The value of parts in base 60. -/
def sexagesimal (parts : List Int) : Int := parts.foldl (fun n d => 60 * n + d) 0

/-- The whole number that a scalar stands for. -/
def intValue (t : Text) : Except ScalarFault Int := do
  let (negative, body) ← splitNumber t
  let n ←
    if body = Text.ofString "0" then pure 0
    else if (Text.after? "0b" body).isSome then readInt 2 (body.drop 2)
    else if (Text.after? "0x" body).isSome then readInt 16 (body.drop 2)
    else
      match body with
      | [] => .error .emptyNumber
      | c :: _ =>
        if c = '0' then readInt 8 body
        else if body.any (oneOf ":") then do
          let parts ← (body.splitOn (CodePoint.ofChar ':')).mapM (readInt 10)
          pure (sexagesimal parts)
        else readInt 10 body
  return if negative then -n else n

/-! ### Floating point numbers -/

/-- Reads a floating point number with blanks around it. -/
def readFloat (t : Text) : Except ScalarFault Binary64 :=
  match Binary64.ofText? (Text.asciiDigits (t.trim CodePoint.isBlank)) with
  | some x => .ok x
  | none => .error (.notFloat t)

/-- Adds up parts in base 60, the last one first; `base` is the value of a unit of the next, which
must not be beyond the floating point numbers. -/
def addSixtieths (base : Nat) (sum : Binary64) : List Binary64 → Except ScalarFault Binary64
  | [] => .ok sum
  | x :: more =>
    match Binary64.ofInt? base with
    | some unit => addSixtieths (60 * base) (sum.add (x.mul unit)) more
    | none => .error .tooLarge

/-- The floating point number that a scalar stands for. -/
def floatValue (t : Text) : Except ScalarFault Binary64 := do
  let (negative, body) ← splitNumber t.toAsciiLower
  let x ←
    if body = Text.ofString ".inf" then pure (.infinite false)
    else if body = Text.ofString ".nan" then pure .nan
    else if body.any (oneOf ":") then do
      let parts ← (body.splitOn (CodePoint.ofChar ':')).mapM readFloat
      addSixtieths 1 (.zero false) parts.reverse
    else readFloat body
  return if negative then x.neg else x

/-! ### Truth values -/

def truthWords : List (Text × Bool) :=
  [("yes", true), ("no", false), ("true", true), ("false", false), ("on", true), ("off", false)]

/-- A word in small letters, in capitals, or with its first letter as a capital. -/
def caseForms (word : String) : List Text := [word, word.toUpper, word.capitalize]

/-- Whether a text without a tag is a truth value. -/
def isTruthForm (t : Text) : Bool :=
  let words := ["yes", "no", "true", "false", "on", "off"]
  (words.flatMap caseForms).contains t

/-- The truth value that a scalar stands for. -/
def truthValue (t : Text) : Except ScalarFault Bool :=
  match truthWords.lookup t.toAsciiLower with
  | some b => .ok b
  | none => .error (.notTruth t.toAsciiLower)

end SvgDeck.Yaml
