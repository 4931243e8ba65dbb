/-
What can be wrong with YAML.

A text either breaks the rules of the format, which is `malformed`, or the reader breaks down on it:
a scalar has the form of a number, a truth value or a date and stands for none, or there is no end
of collections in collections.
-/
import SvgDeck.Text.Quoted

namespace SvgDeck.Yaml

/-- A part of a date or a time that is beyond its range. -/
inductive DatePart where
  | year (value : Nat)
  | month
  | day
  | hour
  | minute
  | second
  /-- The offset from universal time, in minutes. -/
  | offset (minutes : Int)

/-- A scalar that stands for no value of its kind. -/
inductive ScalarFault where
  /-- No whole number in the given base. -/
  | notInteger (base : Nat) (t : Text)
  | tooManyDigits (count : Nat)
  | notFloat (t : Text)
  /-- A number in base 60 with more parts than a floating point number can hold. -/
  | tooLarge
  | notTruth (t : Text)
  | emptyNumber
  | notDate
  /-- A date as the plain value of a mapping. -/
  | dateInMapping
  | datePart (p : DatePart)
  /-- An escape for a number that no code point has. -/
  | codePoint (n : Nat)

/-- What stops the reader although no rule of the format is broken. -/
inductive Breakdown where
  | scalar (f : ScalarFault)
  /-- Collections in collections, deeper than the reader follows. -/
  | tooDeep

inductive Fault where
  | malformed
  | breakdown (b : Breakdown)

/-- A span of time in days and seconds, as messages show it. -/
def spanText (minutes : Int) : Text :=
  let days := minutes.fdiv 1440
  let seconds := minutes.fmod 1440 * 60
  let parts : List Text :=
    (if days = 0 then [] else ["days=" ++ Text.ofInt days]) ++
      (if seconds = 0 then [] else ["seconds=" ++ Text.ofInt seconds])
  "datetime.timedelta(" ++ (if parts = [] then Text.ofString "0" else Text.join ", " parts) ++ ")"

def DatePart.message : DatePart → Text
  | .year n => "year " ++ Text.ofNat n ++ " is out of range"
  | .month => "month must be in 1..12"
  | .day => "day is out of range for month"
  | .hour => "hour must be in 0..23"
  | .minute => "minute must be in 0..59"
  | .second => "second must be in 0..59"
  | .offset minutes =>
    "offset must be a timedelta strictly between -timedelta(hours=24) and timedelta(hours=24), not " ++
      spanText minutes ++ "."

/-- The largest number that is looked at as a code point at all. -/
def codePointLimit : Nat := 0x80000000

/-- How much of a text that is no whole number is shown, the opening quote included. -/
def shownLimit : Nat := 200

def ScalarFault.message : ScalarFault → Text
  | .notInteger base t =>
    "invalid literal for int() with base " ++ Text.ofNat base ++ ": " ++ t.quoted.take shownLimit
  | .tooManyDigits count =>
    "Exceeds the limit (" ++ Text.ofNat digitLimit ++
      " digits) for integer string conversion: value has " ++ Text.ofNat count ++ " digits; use sys.set_int_max_str_digits() to increase the limit"
  | .notFloat t => "could not convert string to float: " ++ t.quoted
  | .tooLarge => "int too large to convert to float"
  | .notTruth t => t.quoted
  | .emptyNumber => "string index out of range"
  | .notDate => "'NoneType' object has no attribute 'groupdict'"
  | .dateInMapping => "expected string or bytes-like object, got 'list'"
  | .datePart p => p.message
  | .codePoint n =>
    if n < codePointLimit then "chr() arg not in range(0x110000)"
    else "Python int too large to convert to C int"

def Breakdown.message : Breakdown → Text
  | .scalar f => f.message
  | .tooDeep => "maximum recursion depth exceeded"

end SvgDeck.Yaml
