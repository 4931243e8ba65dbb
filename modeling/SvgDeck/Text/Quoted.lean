/-
Texts shown in messages, with quotes around them.

A quoted text stands between single quotes, or between double quotes if it holds
a single quote and no double quote.  The quote in use, the backslash and what is
not printable are escaped: tab, line feed and carriage return by a letter, all
others by the shortest of two, four and eight hexadecimal digits.
-/
import SvgDeck.Text.Printable

namespace SvgDeck.Text

/-- Which quote stands around `t`. -/
def quoteFor (t : Text) : CodePoint :=
  if t.contains '\'' && !t.contains '"' then '"' else '\''

/-- One code point inside a text quoted by `quote`. -/
def escapeQuoted (quote c : CodePoint) : Text :=
  if c = quote ∨ c = '\\' then ['\\', c]
  else if c = '\t' then "\\t"
  else if c = '\n' then "\\n"
  else if c = '\r' then "\\r"
  else if c.isPrintable then [c]
  else if c.val < 0x100 then "\\x" ++ hex 2 c.val
  else if c.val < 0x10000 then "\\u" ++ hex 4 c.val
  else "\\U" ++ hex 8 c.val

/-- The text between quotes. -/
def quoted (t : Text) : Text :=
  let quote := quoteFor t
  [quote] ++ t.flatMap (escapeQuoted quote) ++ [quote]

end SvgDeck.Text
