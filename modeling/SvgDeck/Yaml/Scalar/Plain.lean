/-
Scalars without quotes.

A plain scalar goes on over spaces and line ends as long as what follows is indented
enough and begins no comment.  Inside flow collections their indicators end it.
-/
import SvgDeck.Yaml.Cursor

namespace SvgDeck.Yaml.Plain

/-- The indicators of flow collections. -/
def isFlowIndicator (c : CodePoint) : Bool := oneOf ",[]\x7b\x7d" c

/-- Whether a colon before `next` ends a scalar. -/
def colonEnds (inFlow : Bool) (next : Option CodePoint) : Bool :=
  endsWord next || (inFlow && next.any isFlowIndicator)

/-- The length of the part of a scalar that a text begins with, up to white space. -/
def runLength (inFlow : Bool) : Text → Nat
  | [] => 0
  | c :: t =>
    if isGap c || isBreak c then 0
    else if c = ':' && colonEnds inFlow t.head? then 0
    else if inFlow && (isFlowIndicator c || oneOf "?" c) then 0
    else runLength inFlow t + 1

/-- The length of the spaces and line ends behind a line end, and what the line ends stand for;
nothing if a marker between documents follows.  `atStart` says that a line starts here. -/
def breaksLength (atStart : Bool) : Text → Nat × Option Text
  | [] => (0, some [])
  | c :: t =>
    if atStart && isDocumentMarker (c :: t) then (0, none)
    else if isSpace c then
      let (n, breaks) := breaksLength false t
      (n + 1, breaks)
    else if isBreak c then
      let (n, breaks) := breaksLength true t
      (n + 1, breaks.map (breakText c :: ·))
    else (0, some [])

/-- White space inside a scalar: what it stands for if the scalar may go on, the cursor behind it,
and whether it holds a line end. -/
def readGap (c : Cursor) : Option Text × Cursor × Bool :=
  let blanks := c.rest.takeWhile isSpace
  let c := c.advance blanks.length
  match c.rest with
  | [] => (if blanks = [] then none else some blanks, c, false)
  | x :: _ =>
    if isBreak x then
      let c := c.next
      let (n, breaks) := breaksLength true c.rest
      let folded := breaks.map fun more =>
        if breakText x ≠ CodePoint.ofChar '\n' then breakText x :: more
        else if more = [] then [CodePoint.ofChar ' ']
        else more
      (folded, c.advance n, true)
    else (if blanks = [] then none else some blanks, c, false)

/-- Reads on after `text`, which `gap` separates from the cursor: the whole scalar, the cursor behind
it and the white space after it, and whether a line end was passed last. -/
def readAfter (inFlow : Bool) (indent : Int) (text gap : Text) (passedBreak : Bool) (c : Cursor) :
    Text × Cursor × Bool :=
  let n := runLength inFlow c.rest
  if c.peek 0 = some (CodePoint.ofChar '#') ∨ n = 0 then (text, c, passedBreak)
  else
    let text := text ++ gap ++ c.rest.take n
    let (gap, after, passedBreak) := readGap (c.advance n)
    match gap with
    | none => (text, after, passedBreak)
    | some gap =>
      if after.peek 0 = some (CodePoint.ofChar '#') ∨ (!inFlow ∧ (after.column : Int) < indent) then
        (text, after, passedBreak)
      else if _h : after.rest.length < c.rest.length then
        readAfter inFlow indent text gap passedBreak after
      else (text, after, passedBreak)
termination_by c.rest.length

/-- Reads a plain scalar that is part of a collection with the given indentation. -/
def read (inFlow : Bool) (indent : Int) (c : Cursor) : Text × Cursor × Bool :=
  readAfter inFlow (indent + 1) [] [] false c

end SvgDeck.Yaml.Plain
