/-
Files of pictures, as markup describes them.

Around the root element of a file there may be white space and comments, and in front of it a
declaration and a doctype as well.  The constructors carry what the grammar asks of each part: a
comment holds no two dashes in a row, a literal not its own quote.  `Drawing.text` is the file as it
is written, and the remarks of a part are its free texts, which the grammar leaves to the author.
-/
import SvgDeck.Asset

namespace SvgDeck

namespace Drawing

/-! ### Beside the root element -/

def isSpace (c : CodePoint) : Bool :=
  c.val == 0x20 || c.isBetween 0x09 0x0A || c.val == 0x0D

/-- What may stand anywhere around the root element. -/
inductive Aside where
  | space (c : CodePoint) (isSpace : isSpace c = true)
  | comment (said : Text) (noDashes : ¬ Text.ofString "--" <:+: said)

def Aside.text : Aside → Text
  | .space c _ => [c]
  | .comment said _ => "<!--" ++ said ++ "-->"

def Aside.remarks : Aside → List Text
  | .space _ _ => []
  | .comment said _ => [said]

/-- The declaration that a file may begin with; no bracket stands in its attributes. -/
structure Declaration where
  attributes : Text
  noBracket : ∀ c ∈ attributes, c ∉ Text.ofString "<>"

def Declaration.text (d : Declaration) : Text := "<?xml" ++ d.attributes ++ "?>"

/-! ### Doctypes -/

/-- A part of a doctype, or of a declaration inside it. -/
inductive Piece where
  | plain (c : CodePoint) (isPlain : c ∉ Text.ofString "<>[]'\"")
  | literal (quote : CodePoint) (isQuote : quote ∈ Text.ofString "'\"") (said : Text)
      (noQuote : quote ∉ said)

def Piece.text : Piece → Text
  | .plain c _ => [c]
  | .literal quote _ said _ => quote :: (said ++ [quote])

def Piece.remarks : Piece → List Text
  | .plain _ _ => []
  | .literal _ _ said _ => [said]

/-- An entry between the brackets of a doctype. -/
inductive Entry where
  | aside (a : Aside)
  | reference (name : Text) (isPlain : ∀ c ∈ name, c ∉ Text.ofString "<>[]'\";")
  | instruction (said : Text) (noEnd : ¬ Text.ofString "?>" <:+: said)
  | declaration (pieces : List Piece)

def Entry.text : Entry → Text
  | .aside a => a.text
  | .reference name _ => "%" ++ name ++ ";"
  | .instruction said _ => "<?" ++ said ++ "?>"
  | .declaration pieces => "<!" ++ pieces.flatMap Piece.text ++ ">"

def Entry.remarks : Entry → List Text
  | .aside a => a.remarks
  | .reference _ _ => []
  | .instruction said _ => [said]
  | .declaration pieces => pieces.flatMap Piece.remarks

/-- The name of the root element, and where and how its kind is described. -/
structure Doctype where
  pieces : List Piece
  entries : Option (List Entry)
  spaces : Text
  areSpaces : ∀ c ∈ spaces, isSpace c = true

namespace Doctype

def entriesText (d : Doctype) : Text :=
  match d.entries with
  | none => []
  | some entries => "[" ++ entries.flatMap Entry.text ++ "]"

def text (d : Doctype) : Text :=
  "<!DOCTYPE" ++ d.pieces.flatMap Piece.text ++ d.entriesText ++ d.spaces ++ ">"

def remarks (d : Doctype) : List Text :=
  d.pieces.flatMap Piece.remarks ++ (d.entries.getD []).flatMap Entry.remarks

end Doctype

/-! ### In front of the root element -/

structure Prologue where
  declaration : Option Declaration
  asides : List Aside
  /-- The doctype, and what stands between it and the root element. -/
  doctype : Option (Doctype × List Aside)

namespace Prologue

def declarationText (p : Prologue) : Text :=
  match p.declaration with
  | none => []
  | some d => d.text

def doctypeText (p : Prologue) : Text :=
  match p.doctype with
  | none => []
  | some (d, asides) => d.text ++ asides.flatMap Aside.text

def text (p : Prologue) : Text :=
  p.declarationText ++ p.asides.flatMap Aside.text ++ p.doctypeText

def doctypeRemarks (p : Prologue) : List Text :=
  match p.doctype with
  | none => []
  | some (d, asides) => d.remarks ++ asides.flatMap Aside.remarks

def remarks (p : Prologue) : List Text := p.asides.flatMap Aside.remarks ++ p.doctypeRemarks

end Prologue

end Drawing

/-! ### Files -/

/-- A file with its root element; of the element only the two ends matter. -/
structure Drawing where
  prologue : Drawing.Prologue
  root : Text
  starts : bodyStart <+: root
  ends : bodyEnd <:+ root
  epilogue : List Drawing.Aside

namespace Drawing

def epilogueText (d : Drawing) : Text := d.epilogue.flatMap Aside.text

def text (d : Drawing) : Text := d.prologue.text ++ d.root ++ d.epilogueText

end Drawing

end SvgDeck
