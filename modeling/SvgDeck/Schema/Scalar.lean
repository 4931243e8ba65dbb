/-
Checks of single values.

Texts, numbers, truth values and decimals are accepted in several forms: a number
may be written as a text, a truth value as a number or a word.  A text that has to
be looked into must be free of surrogates.
-/
import SvgDeck.Schema.Checked
import SvgDeck.Number.Shortest
import SvgDeck.Text.Utf8

namespace SvgDeck.Checked

/-! ### Texts -/

/-- The text that a text or UTF-8 bytes stand for. -/
def text : Value → Checked Text
  | .text t => .valid t
  | .bytes b =>
    match Utf8.decode b with
    | .ok t => .valid t
    | .error _ => fail .notUnicode
  | _ => fail .notText

/-- A text without surrogates. -/
def unicode (t : Text) : Checked Text :=
  if t.any CodePoint.isSurrogate then fail .notUnicode else .valid t

/-- A form that texts may be required to have, and how it is shown. -/
structure Pattern where
  shown : Text
  accepts : Text → Bool

/-- A text of the given form. -/
def matching (p : Pattern) (v : Value) : Checked Text :=
  ((text v).bind unicode).bind fun t =>
    if p.accepts t then .valid t else fail (.mismatch p.shown)

/-! ### Numbers -/

/-- A numeral without the single underscores between its code points; nothing if it has none of
them, or one of them at an end or beside another. -/
def joinGroups? (t : Text) : Option Text :=
  let groups := t.splitOn (CodePoint.ofChar '_')
  if groups.length = 1 ∨ [] ∈ groups then none else some groups.flatten

/-- The number that a text stands for. -/
def numeral (t : Text) : Checked Binary64 :=
  match Binary64.ofText? (t.trim CodePoint.isSpace) with
  | some x => .valid x
  | none =>
    match (joinGroups? t).bind Binary64.ofText? with
    | some x => .valid x
    | none => fail .notNumeral

/-- A number, in any form that a document may give it. -/
def number : Value → Checked Binary64
  | .float x => .valid x
  | .bool b => .valid (if b then .one else .zero false)
  | .int n =>
    match Binary64.ofInt? n with
    | some x => .valid x
    | none => fail .notNumber
  | .text t => (unicode t).bind numeral
  | .bytes b =>
    match Utf8.decode b with
    | .ok t => numeral t
    | .error _ => fail .notNumeral
  | _ => fail .notNumber

/-! ### Truth values -/

def noWords : List Text := ["0", "off", "f", "false", "n", "no"]

def yesWords : List Text := ["1", "on", "t", "true", "y", "yes"]

/-- The truth value of a word, in any case. -/
def truthWord (t : Text) : Checked Bool :=
  if t.toAsciiLower ∈ noWords then .valid false
  else if t.toAsciiLower ∈ yesWords then .valid true
  else fail .unclearBoolean

/-- The truth value of a whole number of 64 bits. -/
def truthNumber (n : Int) : Checked Bool :=
  if n = 0 then .valid false
  else if n = 1 then .valid true
  else fail .unclearBoolean

/-- What whole numbers of 64 bits stay below. -/
def int64Limit : Int := 0x8000000000000000

/-- A truth value, in any form that a document may give it. -/
def truth : Value → Checked Bool
  | .bool b => .valid b
  | .text t => (unicode t).bind truthWord
  | .bytes b =>
    match Utf8.decode b with
    | .ok t => truthWord t
    | .error _ => fail .unclearBoolean
  | .int n => if -int64Limit ≤ n ∧ n < int64Limit then truthNumber n else fail .notBoolean
  | .float x =>
    match x.toInt? with
    | some n => if -int64Limit < n ∧ n < int64Limit then truthNumber n else fail .notBoolean
    | none => fail .notBoolean
  | _ => fail .notBoolean

/-! ### Decimals -/

/-- A decimal that is finite and not below zero. -/
def magnitude : Decimal.Reading → Checked Decimal
  | .notFinite => fail .notFinite
  | .finite d => if d.isBelowZero then fail .belowZero else .valid d

/-- A decimal, in any form that a document may give it; a floating point number stands for its
shortest decimal. -/
def decimal : Value → Checked Decimal
  | .int n => magnitude (.finite (.ofInt n))
  | .float x =>
    match Decimal.Reading.ofText? x.text with
    | some r => magnitude r
    | none => fail .notDecimal
  | .text t =>
    match Decimal.Reading.ofText? t with
    | some r => magnitude r
    | none => fail .notDecimal
  | _ => fail .notDecimalKind

end SvgDeck.Checked
