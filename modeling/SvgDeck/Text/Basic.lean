/-
Texts.

A text is a list of code points.  Every number below 0x110000 counts, the
surrogates included, because a document may name any of them by an escape.  The
file fixes how Lean's characters and strings are read as texts and holds the
few operations that all other modules share: the digits of a number, the ASCII
classes, and putting texts together.
-/

namespace SvgDeck

/-- A Unicode code point; surrogates are allowed. -/
structure CodePoint where
  val : Nat
  isLt : val < 0x110000
deriving DecidableEq

/-- Text is a sequence of code points. -/
abbrev Text := List CodePoint

namespace CodePoint

theorem ofChar_bound (c : Char) : c.val.toNat < 0x110000 := by
  have h := c.valid
  simp only [UInt32.isValidChar, Nat.isValidChar] at h
  omega

def ofChar (c : Char) : CodePoint := ⟨c.val.toNat, ofChar_bound c⟩

instance : Coe Char CodePoint := ⟨ofChar⟩

instance : Inhabited CodePoint := ⟨ofChar ' '⟩

/-- The code point of a number, if there is one. -/
def ofNat? (n : Nat) : Option CodePoint :=
  if h : n < 0x110000 then some ⟨n, h⟩ else none

@[ext] theorem ext {a b : CodePoint} (h : a.val = b.val) : a = b := by
  cases a; cases b; simp_all

theorem ofChar_injective {a b : Char} (h : ofChar a = ofChar b) : a = b := by
  have hv : a.val.toNat = b.val.toNat := congrArg CodePoint.val h
  exact Char.ext (UInt32.toNat_inj.1 hv)

/-- Code points that stand for no character and have no UTF-8 form. -/
def isSurrogate (c : CodePoint) : Bool :=
  0xD800 ≤ c.val && c.val ≤ 0xDFFF

/-- The character of a code point; a surrogate has none and is shown as the replacement character. -/
def toChar (c : CodePoint) : Char :=
  if h : Nat.isValidChar c.val then Char.ofNatAux c.val h else '\uFFFD'

/-- Membership in a closed range of numbers. -/
def isBetween (c : CodePoint) (low high : Nat) : Bool :=
  low ≤ c.val && c.val ≤ high

def isAsciiDigit (c : CodePoint) : Bool := c.isBetween 0x30 0x39

def isAsciiUpper (c : CodePoint) : Bool := c.isBetween 0x41 0x5A

def isAsciiLower (c : CodePoint) : Bool := c.isBetween 0x61 0x7A

def isAsciiAlphanumeric (c : CodePoint) : Bool :=
  c.isAsciiDigit || c.isAsciiUpper || c.isAsciiLower

/-- ASCII capitals become small letters; all else stays. -/
def toAsciiLower (c : CodePoint) : CodePoint :=
  if h : c.isAsciiUpper then
    ⟨c.val + 32, by
      simp only [isAsciiUpper, isBetween, Bool.and_eq_true, decide_eq_true_eq] at h
      omega⟩
  else c

/-- The value of a hexadecimal digit of either case. -/
def hexDigit? (c : CodePoint) : Option Nat :=
  if c.isAsciiDigit then some (c.val - 0x30)
  else if c.isBetween 0x41 0x46 then some (c.val - 0x41 + 10)
  else if c.isBetween 0x61 0x66 then some (c.val - 0x61 + 10)
  else none

end CodePoint

/-- The number of decimal digits that whole numbers are read from and written with at most, as long
as no other limit is set. -/
def digitLimit : Nat := 4300

/-- A whole number has more digits than are written. -/
structure DigitFault where
  limit : Nat
deriving DecidableEq

namespace Text

/-- A string of characters as a text. -/
def ofString (s : String) : Text := s.toList.map CodePoint.ofChar

instance : Coe String (List CodePoint) := ⟨ofString⟩

/-- A text as a string of characters. -/
def toString (t : Text) : String := String.ofList (t.map CodePoint.toChar)

/-- A number in the base `base`, digits above nine as small letters. -/
def ofNatBase (base n : Nat) : Text := (Nat.toDigits base n).map CodePoint.ofChar

/-- A number in decimal. -/
def ofNat (n : Nat) : Text := ofNatBase 10 n

/-- A whole number in decimal, with a minus sign below zero. -/
def ofInt : Int → Text
  | .ofNat n => ofNat n
  | .negSucc n => CodePoint.ofChar '-' :: ofNat (n + 1)

/-- A whole number in decimal, if it has no more digits than `limit` allows; `none` allows all. -/
def writeInt (limit : Option Nat) (n : Int) : Except DigitFault Text :=
  match limit with
  | none => .ok (ofInt n)
  | some digits => if n.natAbs < Nat.pow 10 digits then .ok (ofInt n) else .error ⟨digits⟩

/-- `n` in hexadecimal, filled with zeros on the left to `width` digits. -/
def hex (width n : Nat) : Text :=
  let digits := ofNatBase 16 n
  List.replicate (width - digits.length) (CodePoint.ofChar '0') ++ digits

/-- All of `parts`, one after the other, with `separator` between neighbours. -/
def join (separator : Text) (parts : List Text) : Text := separator.intercalate parts

/-- Lines joined by line feeds. -/
def lines (parts : List Text) : Text := join [CodePoint.ofChar '\n'] parts

/-- A text given line by line. -/
def ofLines (parts : List String) : Text := lines (parts.map ofString)

def toAsciiLower (t : Text) : Text := t.map CodePoint.toAsciiLower

/-- Order by code point, first difference first. -/
def le : Text → Text → Bool
  | [], _ => true
  | _ :: _, [] => false
  | a :: s, b :: t => a.val < b.val || (a.val == b.val && le s t)

/-- What follows `front` in a text that begins with it. -/
def after? : (front t : Text) → Option Text
  | [], t => some t
  | _ :: _, [] => none
  | a :: front, b :: t => if a = b then after? front t else none

/-- Texts without repetitions, each where it is seen first. -/
def distinct (texts : List Text) : List Text := texts.eraseDups

end Text

def DigitFault.message (f : DigitFault) : Text :=
  "Exceeds the limit (" ++ Text.ofNat f.limit ++ " digits) for integer string conversion; " ++
    "use sys.set_int_max_str_digits() to increase the limit"

end SvgDeck
