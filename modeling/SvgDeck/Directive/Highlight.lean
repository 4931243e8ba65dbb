/-
The highlight directive: `rects color thickness opacities start end`.

It draws a rounded outline for each rectangle.  All outlines share the stroke and
the row of opacities that the stroke passes through.  `Highlight.parse` reads the
directive and `Highlight.markup` writes one element for each rectangle.
-/
import SvgDeck.Directive.Rect
import SvgDeck.Directive.Timing
import SvgDeck.Text.Blank
import SvgDeck.Text.Escaped

namespace SvgDeck.Directive

/-- Outlines that share stroke and timing; thickness and opacities are kept as written. -/
structure Highlight where
  rects : List Rect
  color : Text
  thickness : Text
  opacities : Text
  timing : Timing
deriving DecidableEq

/-- The separators between opacities. -/
def isOpacitySeparator (c : CodePoint) : Bool := c = CodePoint.ofChar ';' || c = CodePoint.ofChar ','

/-- Checks a row of opacities and keeps it as it is. -/
def parseOpacities (token : Text) : Except SyntaxFault Text := do
  let _ ← inToken "opacity keyframes" token
    (readPieces readNumber 0 (token.splitOnP isOpacitySeparator))
  return token

/-- Checks the thickness of a stroke and keeps it as it is. -/
def parseThickness (token : Text) : Except SyntaxFault Text := do
  let _ ← parseNumber "thickness" token
  return token

namespace Highlight

/-- The tokens of the directive, for messages. -/
def shape : Text := "<rects> <color> <thickness> <opacities> <start> <end>"

def parse (text : Text) : Except SyntaxFault Highlight :=
  match text.words with
  | [rects, color, thickness, opacities, start, stop] => do
    let rects ← Rect.parseList rects
    let thickness ← parseThickness thickness
    let opacities ← parseOpacities opacities
    let timing ← Timing.parse start stop
    return { rects, color, thickness, opacities, timing }
  | tokens => .error (.tokenCount shape tokens.length)

/-- Radius of the rounded corners. -/
def cornerRadius : Text := "10"

/-- The outline of one rectangle, with the animation inside. -/
def outline (h : Highlight) (animation : Text) (r : Rect) : Text :=
  let names : List Text := [" x=\"", " y=\"", " width=\"", " height=\""]
  let geometry := names.zipWith (fun (name value : Text) => name ++ value ++ "\"") r.components
  "<rect" ++ geometry.flatten ++ " rx=\"" ++ cornerRadius ++ "\" ry=\"" ++ cornerRadius ++
    "\" fill=\"transparent\" stroke=\"" ++ h.color.escapeMarkup ++ "\" stroke-width=\"" ++
    h.thickness ++ "\" stroke-opacity=\"0\">" ++ animation ++ "</rect>"

/-- The outlines, one for each rectangle, animated for `duration`. -/
def markup (h : Highlight) (duration : Decimal) : Text :=
  let animation := animate "stroke-opacity" h.opacities h.timing.start duration
  h.rects.flatMap (h.outline animation)

end Highlight

end SvgDeck.Directive
