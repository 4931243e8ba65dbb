/-
How the tokens of a directive are read.

A directive is a row of tokens between blanks, and no token holds a blank.  A
token is read from left to right; where it cannot go on, the reader says what it
was looking for and at which position.  `readNumber` and `readField` read one
number, `readPieces` reads a list of parts with one separator between
neighbours, and `SyntaxFault.message` puts a fault into words.
-/
import SvgDeck.Number.Decimal
import SvgDeck.Text.Quoted

namespace SvgDeck.Directive

/-- What a reader was looking for. -/
inductive Expectation where
  | number
  | comma
  | ending
deriving DecidableEq

/-- Where a token cannot be read further, and what should have been there. -/
structure Misread where
  expectation : Expectation
  position : Nat
deriving DecidableEq

/-- Why a directive is refused. -/
inductive SyntaxFault where
  /-- The directive does not have the tokens of `shape`, but `count` of them. -/
  | tokenCount (shape : Text) (count : Nat)
  /-- The token that gives `part` cannot be read. -/
  | misread (part token : Text) (stop : Misread)
deriving DecidableEq

def Expectation.message : Expectation → Text
  | .number => "expected a number"
  | .comma => "expected ','"
  | .ending => "unexpected trailing characters"

/-- What stands at a position of a token, for a message. -/
def foundAt (token : Text) (position : Nat) : Text :=
  match token[position]? with
  | some c => Text.quoted [c]
  | none => "end of input"

def SyntaxFault.message : SyntaxFault → Text
  | .tokenCount shape count =>
    "expected '" ++ shape ++ "', got " ++ Text.ofNat count ++ " token(s)"
  | .misread part token stop =>
    part ++ " '" ++ token ++ "': " ++ stop.expectation.message ++ " at position " ++
      Text.ofNat stop.position ++ ", found " ++ foundAt token stop.position

/-- Reads `t`, which starts at `start`, as one number and nothing else. -/
def readNumber (start : Nat) (t : Text) : Except Misread Decimal :=
  match Numeral.split? t with
  | none => .error ⟨.number, start⟩
  | some (n, []) => .ok (.ofNumeral n)
  | some (n, _ :: _) => .error ⟨.ending, start + n.text.length⟩

/-- Reads the number and the comma that `t`, which starts at `start`, begins with; what follows
comes with the position where it starts. -/
def readField (start : Nat) (t : Text) : Except Misread (Decimal × Nat × Text) :=
  match Numeral.split? t with
  | none => .error ⟨.number, start⟩
  | some (n, []) => .error ⟨.comma, start + n.text.length⟩
  | some (n, c :: rest) =>
    if c = ',' then .ok (.ofNumeral n, start + n.text.length + 1, rest)
    else .error ⟨.comma, start + n.text.length⟩

/-- Reads parts that stood one after the other with one separator between neighbours, the first of
them at `start`. -/
def readPieces {α : Type} (read : Nat → Text → Except Misread α) :
    Nat → List Text → Except Misread (List α)
  | _, [] => .ok []
  | start, piece :: pieces => do
    let a ← read start piece
    let as ← readPieces read (start + piece.length + 1) pieces
    return a :: as

/-- Names the part and the token in the fault of a reader. -/
def inToken {α : Type} (part token : Text) (result : Except Misread α) : Except SyntaxFault α :=
  result.mapError (.misread part token)

/-- Reads the token that gives `part` as one number. -/
def parseNumber (part token : Text) : Except SyntaxFault Decimal :=
  inToken part token (readNumber 0 token)

end SvgDeck.Directive
