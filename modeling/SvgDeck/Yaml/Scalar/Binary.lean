/-
Bytes written with 64 letters.

Each letter stands for six bits, and four letters for three bytes; equals signs fill up
the last four.  All other characters are passed over.
-/
import SvgDeck.Yaml.Cursor

namespace SvgDeck.Yaml

/-- The six bits that a letter stands for. -/
def sixBits? (c : CodePoint) : Option Nat :=
  if c.isAsciiUpper then some (c.val - 0x41)
  else if c.isAsciiLower then some (c.val - 0x61 + 26)
  else if c.isAsciiDigit then some (c.val - 0x30 + 52)
  else if oneOf "+" c then some 62
  else if oneOf "/" c then some 63
  else none

/-- Reads letters behind `count` others of their four, whose last bits are `left`, with `pads`
equals signs since. -/
def readLetters (count left pads : Nat) : Text → Option (List UInt8)
  | [] => if count = 0 then some [] else none
  | c :: t =>
    if c = '=' then
      if count < 2 then readLetters count left pads t
      else if 4 ≤ count + pads + 1 then some []
      else readLetters count left (pads + 1) t
    else
      match sixBits? c with
      | none => readLetters count left pads t
      | some n =>
        if count = 0 then readLetters 1 n 0 t
        else
          let keep := 6 - 2 * count
          let byte := UInt8.ofNat (left * Nat.pow 2 (6 - keep) + n / Nat.pow 2 keep)
          (readLetters ((count + 1) % 4) (n % Nat.pow 2 keep) 0 t).map (byte :: ·)

/-- The bytes that a text of ASCII characters stands for. -/
def bytesOf? (t : Text) : Option (List UInt8) :=
  if t.all (·.val < 0x80) then readLetters 0 0 0 t else none

end SvgDeck.Yaml
