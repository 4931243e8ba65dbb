/-
White space.

Two sets are in use.  `isBlank` parts the words of a directive; `isSpace`, the
white space of the Unicode standard, is what is trimmed from a number.  They
differ in the four information separators U+001C to U+001F.  `words` gives the
longest pieces without a blank.
-/
import SvgDeck.Text.Basic

namespace SvgDeck.CodePoint

/-- White space as the Unicode standard lists it. -/
def isSpace (c : CodePoint) : Bool :=
  c.isBetween 0x09 0x0D || c.val == 0x20 || c.val == 0x85 || c.val == 0xA0 || c.val == 0x1680 ||
    c.isBetween 0x2000 0x200A || c.val == 0x2028 || c.val == 0x2029 || c.val == 0x202F ||
    c.val == 0x205F || c.val == 0x3000

/-- White space, with the information separators. -/
def isBlank (c : CodePoint) : Bool := c.isSpace || c.isBetween 0x1C 0x1F

end SvgDeck.CodePoint

namespace SvgDeck.Text

/-- The pieces of a text between blanks, in order; no piece is empty. -/
def words (t : Text) : List Text :=
  (t.splitOnP CodePoint.isBlank).filter (!·.isEmpty)

/-- The text without the code points of a class at its two ends. -/
def trim (p : CodePoint → Bool) (t : Text) : Text :=
  ((t.dropWhile p).reverse.dropWhile p).reverse

end SvgDeck.Text
