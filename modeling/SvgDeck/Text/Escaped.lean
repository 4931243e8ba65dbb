/-
Texts inside markup.

The five characters that markup gives a meaning are written as references; all
others stand for themselves.  `escapeMarkup` is used for attribute values and for
the title of a page.
-/
import SvgDeck.Text.Basic

namespace SvgDeck

/-- The reference that stands for a code point in markup, or the code point itself. -/
def CodePoint.escapeMarkup (c : CodePoint) : Text :=
  if c = '&' then "&amp;"
  else if c = '<' then "&lt;"
  else if c = '>' then "&gt;"
  else if c = '"' then "&quot;"
  else if c = '\'' then "&#x27;"
  else [c]

/-- The text with every character that has a meaning in markup replaced by its reference. -/
def Text.escapeMarkup (t : Text) : Text := t.flatMap CodePoint.escapeMarkup

end SvgDeck
