/-
Parts of directives given as data.

A rectangle and a timing may be given with their numbers as data instead of being
read from the text of a directive.  Their numbers have to be finite and not below
zero.
-/
import SvgDeck.Directive.Rect
import SvgDeck.Directive.Timing
import SvgDeck.Schema.Scalar

namespace SvgDeck.Directive

open Checked

def Rect.check : Value → Checked Rect :=
  mapping "Quadruple" fun entries =>
    Rect.mk <$> required "x" [] decimal entries
      <*> required "y" [] decimal entries
      <*> required "w" [] decimal entries
      <*> required "h" [] decimal entries
      <*> required "source" [] text entries

def Timing.check : Value → Checked Timing :=
  mapping "TimeRange" fun entries =>
    Timing.mk <$> required "start" [] decimal entries
      <*> required "end" [] decimal entries

end SvgDeck.Directive
