/-
Scalars between quotes.

Line ends inside the quotes fold: one line end becomes a space, and of several all but
the first stay.  Spaces around a line end are dropped.  Between single quotes only the
quote itself is written twice; between double quotes there are escapes, also for a line
end that is to vanish.
-/
import SvgDeck.Yaml.Cursor
import SvgDeck.Yaml.Fault

namespace SvgDeck.Yaml.Quoted

/-- White space that was read and not yet written. -/
inductive Gap where
  | none
  | blanks (t : Text)
  /-- A line end, or an escaped one, and the line ends after it. -/
  | breaks (first : Option CodePoint) (more : Text)

/-- What the white space stands for. -/
def Gap.folded : Gap → Text
  | .none => []
  | .blanks t => t
  | .breaks Option.none more => more
  | .breaks (some first) more =>
    if first ≠ CodePoint.ofChar '\n' then first :: more
    else if more = [] then [CodePoint.ofChar ' ']
    else more

def Gap.addBlank (c : CodePoint) : Gap → Gap
  | .none => .blanks [c]
  | .blanks t => .blanks (t ++ [c])
  | g => g

def Gap.addBreak (c : CodePoint) : Gap → Gap
  | .breaks first more => .breaks first (more ++ [breakText c])
  | _ => .breaks (some (breakText c)) []

/-- Where in a quoted scalar a code point stands. -/
inductive Mode where
  | text (gap : Gap)
  /-- Behind a backslash. -/
  | escape
  /-- Among the digits of an escape, with the number of those to come and the value so far. -/
  | digits (left value : Nat)

/-- The code point that a letter stands for behind a backslash. -/
def escapes : List (Char × Nat) :=
  [('0', 0x00), ('a', 0x07), ('b', 0x08), ('t', 0x09), ('\t', 0x09), ('n', 0x0A), ('v', 0x0B),
    ('f', 0x0C), ('r', 0x0D), ('e', 0x1B), (' ', 0x20), ('"', 0x22), ('\\', 0x5C), ('/', 0x2F),
    ('N', 0x85), ('_', 0xA0), ('L', 0x2028), ('P', 0x2029)]

def escape? (c : CodePoint) : Option CodePoint :=
  (escapes.find? fun e => CodePoint.ofChar e.1 = c).bind fun e => CodePoint.ofNat? e.2

/-- The number of digits behind a letter that announces a number. -/
def digitCount? (c : CodePoint) : Option Nat :=
  if c = 'x' then some 2
  else if c = 'u' then some 4
  else if c = 'U' then some 8
  else none

/-- Puts text in front of what was read. -/
def prepend (front : Text) (result : Except Fault (Text × Text)) : Except Fault (Text × Text) :=
  result.map fun (t, rest) => (front ++ t, rest)

/-- Reads a scalar whose opening quote was taken; what follows its closing quote is left. -/
def read (double : Bool) (mode : Mode) : Text → Except Fault (Text × Text)
  | [] => .error .malformed
  | c :: t =>
    match mode with
    | .escape =>
      if isBreak c then
        if isDocumentMarker t then .error .malformed
        else read double (.text (.breaks none [])) t
      else
        match escape? c, digitCount? c with
        | some x, _ => prepend [x] (read double (.text .none) t)
        | none, some n => read double (.digits n 0) t
        | none, none => .error .malformed
    | .digits left value =>
      match c.hexDigit? with
      | none => .error .malformed
      | some d =>
        let value := 16 * value + d
        if 1 < left then read double (.digits (left - 1) value) t
        else
          match CodePoint.ofNat? value with
          | some x => prepend [x] (read double (.text .none) t)
          | none => .error (.breakdown (.scalar (.codePoint value)))
    | .text gap =>
      if isGap c then read double (.text (gap.addBlank c)) t
      else if isBreak c then
        if isDocumentMarker t then .error .malformed
        else read double (.text (gap.addBreak c)) t
      else if double then
        if c = '"' then .ok (gap.folded, t)
        else if c = '\\' then prepend gap.folded (read double .escape t)
        else prepend (gap.folded ++ [c]) (read double (.text .none) t)
      else if c = '\'' then
        match t with
        | [] => .ok (gap.folded, [])
        | d :: t =>
          if d = '\'' then prepend (gap.folded ++ [c]) (read double (.text .none) t)
          else .ok (gap.folded, d :: t)
      else prepend (gap.folded ++ [c]) (read double (.text .none) t)

end SvgDeck.Yaml.Quoted
