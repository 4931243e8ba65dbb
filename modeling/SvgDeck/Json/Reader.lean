/-
Reading JSON.

`Json.read?` reads one value with white space around it.  A number with neither a
point nor an exponent is whole and may have any size; every other number is
rounded to floating point.  Two escapes that together stand for one code point
above U+FFFF are read as that code point; a surrogate alone stays as it is.
-/
import SvgDeck.Json.Basic

namespace SvgDeck.Json

/-- White space between the parts of a value. -/
def isSpace (c : CodePoint) : Bool :=
  c = CodePoint.ofChar ' ' || c = CodePoint.ofChar '\n' || c = CodePoint.ofChar '\r' ||
    c = CodePoint.ofChar '\t'

def skipSpaces (t : Text) : Text := t.dropWhile isSpace

/-! ### Texts -/

/-- What the letter after a backslash stands for. -/
def unescape? (c : CodePoint) : Option CodePoint :=
  if c = '"' ∨ c = '\\' ∨ c = '/' then some c
  else if c = 'n' then some '\n'
  else if c = 'r' then some '\r'
  else if c = 't' then some '\t'
  else if c = 'b' then some ⟨0x08, by decide⟩
  else if c = 'f' then some ⟨0x0C, by decide⟩
  else none

/-- The value of a row of hexadecimal digits. -/
def hexValue? (t : Text) : Option Nat :=
  (t.mapM CodePoint.hexDigit?).map fun ds => ds.foldl (fun n d => 16 * n + d) 0

def isHighSurrogate (n : Nat) : Bool := 0xD800 ≤ n && n ≤ 0xDBFF

def isLowSurrogate (n : Nat) : Bool := 0xDC00 ≤ n && n ≤ 0xDFFF

/-- Puts code points in front of what was read. -/
def prepend (front : Text) (result : Option (Text × Text)) : Option (Text × Text) :=
  result.map fun (t, rest) => (front ++ t, rest)

/-- Reads a text whose opening quote was taken, to its closing quote.  `high` is the high surrogate
that the escape just before stood for. -/
def readText (high : Option CodePoint) : Text → Option (Text × Text)
  | [] => none
  | c :: rest =>
    if c = '"' then some (high.toList, rest)
    else if c.val < 0x20 then none
    else if c = '\\' then
      match rest with
      | [] => none
      | e :: rest =>
        if e = 'u' then
          match rest with
          | h₁ :: h₂ :: h₃ :: h₄ :: rest =>
            match (hexValue? [h₁, h₂, h₃, h₄]).bind CodePoint.ofNat? with
            | none => none
            | some u =>
              match high with
              | some h =>
                if isLowSurrogate u.val then
                  let joined := 0x10000 + (h.val - 0xD800) * 0x400 + (u.val - 0xDC00)
                  prepend ((CodePoint.ofNat? joined).toList) (readText none rest)
                else if isHighSurrogate u.val then prepend [h] (readText (some u) rest)
                else prepend [h, u] (readText none rest)
              | none =>
                if isHighSurrogate u.val then readText (some u) rest
                else prepend [u] (readText none rest)
          | _ => none
        else
          match unescape? e with
          | none => none
          | some x => prepend (high.toList ++ [x]) (readText none rest)
    else prepend (high.toList ++ [c]) (readText none rest)

/-! ### Numbers -/

def isNumberPart (c : CodePoint) : Bool :=
  c.isAsciiDigit || c = CodePoint.ofChar '+' || c = CodePoint.ofChar '-' ||
    c = CodePoint.ofChar '.' || c = CodePoint.ofChar 'e' || c = CodePoint.ofChar 'E'

/-- Digits, of which a zero stands in front only if it stands alone. -/
def isWhole (t : Text) : Bool :=
  (Text.natOfDigits? t).isSome && (t.head? ≠ some (CodePoint.ofChar '0') || t = Text.ofString "0")

/-- What may follow the digits in front: a point with digits, and an exponent. -/
def isBehindWhole : Text → Bool
  | [] => true
  | c :: t =>
    if c = '.' then
      (Text.natOfDigits? (t.takeWhile CodePoint.isAsciiDigit)).isSome &&
        (Text.exponentPart? (t.dropWhile CodePoint.isAsciiDigit)).isSome
    else (Text.exponentPart? (c :: t)).isSome

/-- The form of a number, with an optional minus sign in front. -/
def isNumber (t : Text) : Bool :=
  let body := (Text.after? "-" t).getD t
  isWhole (body.takeWhile CodePoint.isAsciiDigit) &&
    isBehindWhole (body.dropWhile CodePoint.isAsciiDigit)

/-- A numeral as a number: whole if it holds digits alone after its sign. -/
def number? (t : Text) : Option Json :=
  if isNumber t then
    let (negative, body) := Text.splitSign t
    match Text.natOfDigits? body with
    | some n => some (.int (if negative then -(n : Int) else n))
    | none => (Binary64.ofText? t).map .float
  else none

/-- The words that stand for values. -/
def words : List (Text × Json) :=
  [("null", .null), ("true", .bool true), ("false", .bool false), ("NaN", .float .nan),
    ("Infinity", .float (.infinite false)), ("-Infinity", .float (.infinite true))]

/-- Reads a word or a number. -/
def readAtom (t : Text) : Option (Json × Text) :=
  match words.findSome? fun (word, value) => (Text.after? word t).map (value, ·) with
  | some r => some r
  | none =>
    let numeral := t.takeWhile isNumberPart
    if numeral = [] then none
    else (number? numeral).map (·, t.dropWhile isNumberPart)

/-! ### Values -/

mutual

/-- Reads a value; `fuel` bounds the number of steps. -/
def readValue : Nat → Text → Option (Json × Text)
  | 0, _ => none
  | fuel + 1, t =>
    match skipSpaces t with
    | [] => none
    | c :: rest =>
      if c = '"' then (readText none rest).map fun (content, rest) => (.text content, rest)
      else if c = '[' then
        match skipSpaces rest with
        | [] => none
        | d :: after =>
          if d = ']' then some (.array [], after)
          else (readItems fuel (d :: after)).map fun (items, rest) => (.array items, rest)
      else if c = '\x7b' then
        match skipSpaces rest with
        | [] => none
        | d :: after =>
          if d = '\x7d' then some (.object [], after)
          else (readMembers fuel (d :: after)).map fun (members, rest) => (.object members, rest)
      else readAtom (c :: rest)

/-- Reads one or more items and the closing bracket. -/
def readItems : Nat → Text → Option (List Json × Text)
  | 0, _ => none
  | fuel + 1, t => do
    let (item, rest) ← readValue fuel t
    match skipSpaces rest with
    | [] => none
    | c :: rest =>
      if c = ']' then some ([item], rest)
      else if c = ',' then
        let (items, rest) ← readItems fuel rest
        some (item :: items, rest)
      else none

/-- Reads one or more members and the closing brace. -/
def readMembers : Nat → Text → Option (List (Text × Json) × Text)
  | 0, _ => none
  | fuel + 1, t => do
    let (key, rest) ← readKey t
    let (value, rest) ← readValue fuel rest
    match skipSpaces rest with
    | [] => none
    | c :: rest =>
      if c = '\x7d' then some ([(key, value)], rest)
      else if c = ',' then
        let (members, rest) ← readMembers fuel rest
        some ((key, value) :: members, rest)
      else none
where
  /-- Reads a key and the colon after it. -/
  readKey (t : Text) : Option (Text × Text) :=
    match skipSpaces t with
    | [] => none
    | c :: rest =>
      if c = '"' then do
        let (key, rest) ← readText none rest
        match skipSpaces rest with
        | [] => none
        | d :: rest => if d = ':' then some (key, rest) else none
      else none

end

/-- Reads a text that holds one value. -/
def read? (t : Text) : Option Json :=
  match readValue (t.length + 1) t with
  | some (value, rest) => if skipSpaces rest = [] then some value else none
  | none => none

end SvgDeck.Json
