/-
A position in a text that is read as YAML.

The cursor holds the text that is left, and counts code points, lines and columns.
The text must have its line ends made equal; a line then ends at a line feed, a next
line, a line separator or a paragraph separator.  Tests of the code point at the cursor
also answer for the end of the text.
-/
import SvgDeck.Text.Basic

namespace SvgDeck.Yaml

/-! ### Classes of code points -/

/-- Whether a code point is one of those of `s`. -/
def oneOf (s : String) (c : CodePoint) : Bool := (Text.ofString s).contains c

def isBreak (c : CodePoint) : Bool :=
  c.val == 0x0A || c.val == 0x85 || c.val == 0x2028 || c.val == 0x2029

def isSpace (c : CodePoint) : Bool := c = CodePoint.ofChar ' '

/-- A space or a tab. -/
def isGap (c : CodePoint) : Bool := isSpace c || c = CodePoint.ofChar '\t'

/-- What names and handles are made of. -/
def isWord (c : CodePoint) : Bool := c.isAsciiAlphanumeric || oneOf "-_" c

/-- The line end that a break stands for: the two separators stand for themselves. -/
def breakText (c : CodePoint) : CodePoint := if c.val < 0x2028 then '\n' else c

/-- The end of the text or of a line, or a space. -/
def endsName : Option CodePoint → Bool
  | none => true
  | some c => isBreak c || isSpace c

/-- The end of the text or of a line, a space or a tab. -/
def endsWord : Option CodePoint → Bool
  | none => true
  | some c => isBreak c || isGap c

/-- Whether a text, taken from the start of a line, begins with three times `c` and then the end of
a word. -/
def isMarker (c : Char) (t : Text) : Bool :=
  t.take 3 = List.replicate 3 (CodePoint.ofChar c) && endsWord t[3]?

/-- The markers between documents. -/
def isDocumentMarker (t : Text) : Bool := isMarker '-' t || isMarker '.' t

/-! ### Cursors -/

structure Cursor where
  rest : Text
  index : Nat
  line : Nat
  column : Nat

namespace Cursor

def start (t : Text) : Cursor := ⟨t, 0, 0, 0⟩

/-- The code point that is `n` places further on. -/
def peek (c : Cursor) (n : Nat) : Option CodePoint := c.rest[n]?

/-- Goes over one code point; a byte order mark takes no column. -/
def next (c : Cursor) : Cursor :=
  match c.rest with
  | [] => c
  | x :: rest =>
    if isBreak x then ⟨rest, c.index + 1, c.line + 1, 0⟩
    else ⟨rest, c.index + 1, c.line, if x.val = 0xFEFF then c.column else c.column + 1⟩

def advance : Nat → Cursor → Cursor
  | 0, c => c
  | n + 1, c => advance n c.next

/-- Goes on to where `rest` is left. -/
def upTo (rest : Text) (c : Cursor) : Cursor := advance (c.rest.length - rest.length) c

end Cursor

/-! ### Gaps between tokens -/

/-- The length of the spaces, comments and line ends at the front of a text, and whether there is a
line end among them. -/
def gapLength (inComment : Bool) : Text → Nat × Bool
  | [] => (0, false)
  | c :: t =>
    if isBreak c then ((gapLength false t).1 + 1, true)
    else if inComment || oneOf " #" c then
      let (n, hasBreak) := gapLength (inComment || oneOf "#" c) t
      (n + 1, hasBreak)
    else (0, false)

/-- What follows the rest of a line that may only hold a comment. -/
def skipLine? (t : Text) : Option Text :=
  let t := t.dropWhile isSpace
  let t := if t.head? = some (CodePoint.ofChar '#') then t.dropWhile (!isBreak ·) else t
  match t with
  | [] => some []
  | c :: rest => if isBreak c then some rest else none

end SvgDeck.Yaml
