/-
The focus directive: `rects start end`.

It moves the view box of the canvas through its rectangles, one keyframe each.
`Focus.parse` reads the directive and `Focus.markup` writes the animation.
-/
import SvgDeck.Directive.Rect
import SvgDeck.Directive.Timing
import SvgDeck.Text.Blank

namespace SvgDeck.Directive

/-- The keyframes of the view box, and when they are passed. -/
structure Focus where
  keyframes : List Rect
  timing : Timing
deriving DecidableEq

namespace Focus

/-- The tokens of the directive, for messages. -/
def shape : Text := "<rects> <start> <end>"

def parse (text : Text) : Except SyntaxFault Focus :=
  match text.words with
  | [rects, start, stop] => do
    let keyframes ← Rect.parseList rects
    let timing ← Timing.parse start stop
    return { keyframes, timing }
  | tokens => .error (.tokenCount shape tokens.length)

/-- The animation, running for `duration`. -/
def markup (f : Focus) (duration : Decimal) : Text :=
  animate "viewBox" (Text.join ";" (f.keyframes.map Rect.viewBox)) f.timing.start duration

end Focus

end SvgDeck.Directive
