/-
When an animation runs.

Start and end are seconds, exact decimals as the author wrote them, and the
duration is their exact difference.  `formatSeconds` is how markup shows a
number of seconds: positional, without zeros at the end of a fraction.
-/
import SvgDeck.Directive.Reading

namespace SvgDeck.Directive

/-- Start and end of an animation in seconds. -/
structure Timing where
  start : Decimal
  stop : Decimal
deriving DecidableEq

namespace Timing

/-- Whether from the first digit of the times to the last there are more places than an operation
can be carried out with. -/
def isTooWide (t : Timing) : Bool :=
  Decimal.precisionLimit < Decimal.differencePrecision t.stop t.start

/-- How long the animation runs; nothing if the number has too many digits before the point, or the
digits of the times are too wide apart. -/
def duration? (t : Timing) : Option Decimal :=
  if t.isTooWide then none else t.stop.minus? t.start

/-- Reads the tokens for start and end. -/
def parse (start stop : Text) : Except SyntaxFault Timing := do
  let start ← parseNumber "start time" start
  let stop ← parseNumber "end time" stop
  return { start, stop }

end Timing

/-- A fraction without the zeros at its end, and without its point if nothing else is left. -/
def trimFraction (t : Text) : Text :=
  if t.contains '.' then
    let kept := (t.reverse.dropWhile (· = CodePoint.ofChar '0'))
    (kept.dropWhile (· = CodePoint.ofChar '.')).reverse
  else t

/-- Seconds as markup shows them. -/
def formatSeconds (d : Decimal) : Text := trimFraction d.positional ++ "s"

/-- The element that moves the attribute `name` through `values` in the time given. -/
def animate (name values : Text) (start duration : Decimal) : Text :=
  "<animate attributeName=\"" ++ name ++ "\" values=\"" ++ values ++
    "\" begin=\"" ++ formatSeconds start ++ "\" dur=\"" ++ formatSeconds duration ++
    "\" fill=\"freeze\"/>"

end SvgDeck.Directive
