/-
Rectangles of the canvas.

A rectangle is written `x,y,w,h` and a list of rectangles has a semicolon between
neighbours.  The numbers are kept for checks, and the text for the markup, so that
the markup repeats what the author wrote.
-/
import SvgDeck.Directive.Reading

namespace SvgDeck.Directive

/-- A rectangle and the text it was written as. -/
structure Rect where
  x : Decimal
  y : Decimal
  w : Decimal
  h : Decimal
  source : Text
deriving DecidableEq

namespace Rect

/-- The parts of the text between commas. -/
def components (r : Rect) : List Text := r.source.splitOn (CodePoint.ofChar ',')

/-- The form that the view box of a canvas has. -/
def viewBox (r : Rect) : Text := Text.join " " r.components

/-- Reads a rectangle that starts at `start`. -/
def read (start : Nat) (source : Text) : Except Misread Rect := do
  let (x, start, rest) ← readField start source
  let (y, start, rest) ← readField start rest
  let (w, start, rest) ← readField start rest
  let h ← readNumber start rest
  return { x, y, w, h, source }

/-- Reads the rectangles of a token. -/
def parseList (token : Text) : Except SyntaxFault (List Rect) :=
  inToken "rectangle list" token (readPieces read 0 (token.splitOn (CodePoint.ofChar ';')))

end Rect

end SvgDeck.Directive
