/-
Scalars that stand in lines of their own.

A header says how lines are joined, what becomes of the line ends at the end, and how far
the lines are indented; without that the indentation is taken from the lines.  Literal
scalars keep their line ends.  Folded ones turn a line end between two lines that start
with neither space nor tab into a space.
-/
import SvgDeck.Yaml.Cursor
import SvgDeck.Yaml.Fault

namespace SvgDeck.Yaml.Block

/-- What becomes of the line ends at the end of a scalar. -/
inductive Chomping where
  /-- One is kept. -/
  | clip
  | strip
  | keep
deriving DecidableEq

structure Header where
  chomping : Chomping
  /-- The indentation that the header gives. -/
  indent : Option Nat

def chomping? (c : CodePoint) : Option Chomping :=
  if c = '+' then some .keep
  else if c = '-' then some .strip
  else none

/-- An indicator for the indentation: a digit that is not zero. -/
def indent? (c : CodePoint) : Option Nat := if c.isBetween 0x31 0x39 then some (c.val - 0x30) else none

/-- Reads the indicators of a header, in either order. -/
def readHeader (t : Text) : Header × Text :=
  let (before, t) := takeChomping t
  let (indent, t) := takeIndent t
  let (after, t) := if before.isNone then takeChomping t else (none, t)
  (⟨(before.or after).getD .clip, indent⟩, t)
where
  takeChomping : Text → Option Chomping × Text
    | [] => (none, [])
    | c :: t => if (chomping? c).isSome then (chomping? c, t) else (none, c :: t)
  takeIndent : Text → Option Nat × Text
    | [] => (none, [])
    | c :: t => if (indent? c).isSome then (indent? c, t) else (none, c :: t)

/-- The spaces and line ends at the front of a text: their length, the line ends, and the largest
column that the spaces reach. -/
def leading (column largest : Nat) : Text → Nat × Text × Nat
  | [] => (0, [], largest)
  | c :: t =>
    if isSpace c then
      let (n, breaks, largest) := leading (column + 1) (max largest (column + 1)) t
      (n + 1, breaks, largest)
    else if isBreak c then
      let (n, breaks, largest) := leading 0 largest t
      (n + 1, breakText c :: breaks, largest)
    else (0, [], largest)

/-- The line ends at the front of a text, each line indented by at most `indent`, and the length of
all of it. -/
def emptyLines (indent column : Nat) : Text → Nat × Text
  | [] => (0, [])
  | c :: t =>
    if isSpace c && column < indent then
      let (n, breaks) := emptyLines indent (column + 1) t
      (n + 1, breaks)
    else if isBreak c then
      let (n, breaks) := emptyLines indent 0 t
      (n + 1, breakText c :: breaks)
    else (0, [])

/-- Whether a line starts with neither space nor tab. -/
def startsFlush (c : Cursor) : Bool := !(c.peek 0).any isGap

/-- What joins a line to the next one, over the line end `lineBreak` and the empty lines `breaks`. -/
def joint (folded flush : Bool) (lineBreak breaks : Text) (next : Cursor) : Text :=
  if folded && lineBreak == [CodePoint.ofChar '\n'] && flush && startsFlush next then
    if breaks = [] then [CodePoint.ofChar ' '] else []
  else lineBreak

/-- Reads lines with the given indentation.  `text` holds the lines before with the joint to this
one, and `breaks` the empty lines between; the result has the last line end and the empty lines at
the end apart. -/
def readLines (folded : Bool) (indent : Nat) (text lineBreak breaks : Text) (c : Cursor) :
    Text × Text × Text × Cursor :=
  if c.column ≠ indent ∨ c.rest = [] then (text, lineBreak, breaks, c)
  else
    let content := c.rest.takeWhile (!isBreak ·)
    let text := text ++ breaks ++ content
    let ended := c.advance content.length
    let lineBreak := ((ended.peek 0).map breakText).toList
    let atLine := ended.next
    let (n, breaks) := emptyLines indent 0 atLine.rest
    let after := atLine.advance n
    if after.column ≠ indent ∨ after.rest = [] then (text, lineBreak, breaks, after)
    else
      let text := text ++ joint folded (startsFlush c) lineBreak breaks after
      if _h : after.rest.length < c.rest.length then
        readLines folded indent text lineBreak breaks after
      else (text, lineBreak, breaks, after)
termination_by c.rest.length

/-- The end of a scalar: its last line end and the empty lines behind it, as far as they are kept. -/
def Chomping.tail (lineBreak breaks : Text) : Chomping → Text
  | .strip => []
  | .clip => lineBreak
  | .keep => lineBreak ++ breaks

/-- Reads a scalar whose indicator was taken and that is part of a collection with the indentation
`outer`. -/
def read (folded : Bool) (outer : Int) (c : Cursor) : Except Fault (Text × Cursor) :=
  let (header, t) := readHeader c.rest
  if !endsName t.head? then .error .malformed
  else
    match skipLine? t with
    | none => .error .malformed
    | some t =>
      let c := c.upTo t
      let least := (max 1 (outer + 1)).toNat
      let (indent, breaks, c) :=
        match header.indent with
        | some n =>
          let indent := least + n - 1
          let (n, breaks) := emptyLines indent c.column c.rest
          (indent, breaks, c.advance n)
        | none =>
          let (n, breaks, largest) := leading c.column 0 c.rest
          (max least largest, breaks, c.advance n)
      let (text, lineBreak, breaks, c) := readLines folded indent [] [] breaks c
      .ok (text ++ header.chomping.tail lineBreak breaks, c)

end SvgDeck.Yaml.Block
