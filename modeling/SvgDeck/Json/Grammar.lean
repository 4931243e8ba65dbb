/-
The grammar of JSON.

`IsJson words` says which texts are JSON, code point by code point and without any reader: white
space, strings, numbers, arrays and objects are those of the JSON standard, and `words` are the
literal names that a value may be.  The standard has three of them, `standardWords`; a dialect has
others too.  The standard takes every code point from U+0020 on into a string, a surrogate included.
-/
import SvgDeck.Json.Basic

namespace SvgDeck.Json

/-! ### Strings -/

def IsWhite (t : Text) : Prop := ∀ c ∈ t, c ∈ Text.ofString " \t\n\r"

/-- A code point of a string as it is written. -/
inductive IsUnit : Text → Prop
  | plain {c : CodePoint} (visible : 0x20 ≤ c.val) (quote : c ≠ CodePoint.ofChar '"')
      (backslash : c ≠ CodePoint.ofChar '\\') : IsUnit [c]
  | letter {c : CodePoint} (h : c ∈ Text.ofString "\"\\/bfnrt") :
      IsUnit [CodePoint.ofChar '\\', c]
  | code {digits : Text} (length : digits.length = 4)
      (hex : ∀ c ∈ digits, c.hexDigit?.isSome = true) :
      IsUnit (CodePoint.ofChar '\\' :: CodePoint.ofChar 'u' :: digits)

inductive IsString : Text → Prop
  | quoted {units : List Text} (h : ∀ u ∈ units, IsUnit u) :
      IsString ("\"" ++ units.flatten ++ "\"")

/-! ### Numbers -/

/-- One or more digits. -/
def IsDigitRow (t : Text) : Prop := t ≠ [] ∧ ∀ c ∈ t, c.isAsciiDigit = true

/-- The digits before the point: a zero stands in front only if it stands alone. -/
def IsWhole (t : Text) : Prop :=
  IsDigitRow t ∧ (t.head? = some (CodePoint.ofChar '0') → t = Text.ofString "0")

/-- Nothing, or a point and digits. -/
inductive IsFraction : Text → Prop
  | none : IsFraction []
  | point {digits : Text} (h : IsDigitRow digits) : IsFraction ("." ++ digits)

/-- Nothing, or a letter, an optional sign and digits. -/
inductive IsExponent : Text → Prop
  | none : IsExponent []
  | power {letter sign digits : Text} (letter_mem : letter ∈ [Text.ofString "e", Text.ofString "E"])
      (sign_mem : sign ∈ [[], Text.ofString "+", Text.ofString "-"]) (h : IsDigitRow digits) :
      IsExponent (letter ++ sign ++ digits)

inductive IsNumber : Text → Prop
  | parts {sign whole fraction exponent : Text} (sign_mem : sign ∈ [[], Text.ofString "-"])
      (isWhole : IsWhole whole) (isFraction : IsFraction fraction)
      (isExponent : IsExponent exponent) : IsNumber (sign ++ whole ++ fraction ++ exponent)

/-! ### Values -/

/-- What stands between brackets, and between braces. -/
inductive Part where
  | item
  | member

/-- The phrases of the grammar: a value, one item or member with the white space around it, and a
row of them. -/
inductive Phrase where
  | value
  | part (p : Part)
  | row (p : Part)

inductive IsPhrase (words : List Text) : Phrase → Text → Prop
  | word {t : Text} (h : t ∈ words) : IsPhrase words .value t
  | number {t : Text} (h : IsNumber t) : IsPhrase words .value t
  | text {t : Text} (h : IsString t) : IsPhrase words .value t
  | emptyArray {s : Text} (h : IsWhite s) : IsPhrase words .value ("[" ++ s ++ "]")
  | array {t : Text} (h : IsPhrase words (.row .item) t) :
      IsPhrase words .value ("[" ++ t ++ "]")
  | emptyObject {s : Text} (h : IsWhite s) : IsPhrase words .value ("\x7b" ++ s ++ "\x7d")
  | object {t : Text} (h : IsPhrase words (.row .member) t) :
      IsPhrase words .value ("\x7b" ++ t ++ "\x7d")
  | item {left t right : Text} (white : IsWhite left) (h : IsPhrase words .value t)
      (white' : IsWhite right) : IsPhrase words (.part .item) (left ++ t ++ right)
  | member {left key right t : Text} (white : IsWhite left) (isString : IsString key)
      (white' : IsWhite right) (h : IsPhrase words (.part .item) t) :
      IsPhrase words (.part .member) (left ++ key ++ right ++ ":" ++ t)
  | last {p : Part} {t : Text} (h : IsPhrase words (.part p) t) : IsPhrase words (.row p) t
  | more {p : Part} {t rest : Text} (h : IsPhrase words (.part p) t)
      (hrest : IsPhrase words (.row p) rest) : IsPhrase words (.row p) (t ++ "," ++ rest)

/-- The text is one value with white space around it. -/
def IsJson (words : List Text) (t : Text) : Prop := IsPhrase words (.part .item) t

/-- The literal names of the standard. -/
def standardWords : List Text := ["null", "true", "false"]

/-- The text is JSON as the standard has it. -/
def IsStandard (t : Text) : Prop := IsJson standardWords t

end SvgDeck.Json
