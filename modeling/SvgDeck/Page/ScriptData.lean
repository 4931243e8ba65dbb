/-
What a script element holds.

A browser reads the text of a script element code point by code point, in the states that the HTML
standard names after script data.  An end tag of the element's name ends the element, unless the
text has gone through `<!--` and then through the start tag of a script: from there on, until
`-->`, an end tag of that name only leads back to where the comment alone had led.

`rest?` is what stands behind the tag that ends the element.
-/
import SvgDeck.Text.Basic

namespace SvgDeck.ScriptData

/-- What a code point is to the tokenizer. -/
inductive Kind where
  | less
  | bang
  | dash
  | greater
  | slash
  | letter
  | blank
  | other
deriving DecidableEq

def kind (c : CodePoint) : Kind :=
  if c = '<' then .less
  else if c = '!' then .bang
  else if c = '-' then .dash
  else if c = '>' then .greater
  else if c = '/' then .slash
  else if c.isAsciiUpper || c.isAsciiLower then .letter
  else if c.val = 0x09 || c.val = 0x0A || c.val = 0x0C || c.val = 0x20 then .blank
  else .other

/-- The states of the tokenizer; the names of tags are in small letters. -/
inductive State where
  | data
  | lessThan
  | endTagOpen
  | endTagName (name : Text)
  | escapeStart
  | escapeStartDash
  | escaped
  | escapedDash
  | escapedDashDash
  | escapedLessThan
  | escapedEndTagOpen
  | escapedEndTagName (name : Text)
  | doubleEscapeStart (name : Text)
  | doubleEscaped
  | doubleEscapedDash
  | doubleEscapedDashDash
  | doubleEscapedLessThan
  | doubleEscapeEnd (name : Text)
  /-- Behind the name of the end tag that ends the element. -/
  | left
deriving DecidableEq

/-- The name of the element. -/
def elementName : Text := "script"

def inData : Kind → State
  | .less => .lessThan
  | _ => .data

def inEscaped : Kind → State
  | .dash => .escapedDash
  | .less => .escapedLessThan
  | _ => .escaped

def inDoubleEscaped : Kind → State
  | .dash => .doubleEscapedDash
  | .less => .doubleEscapedLessThan
  | _ => .doubleEscaped

/-- Where the tokenizer goes at a code point of the kind `k`, which is `small` in small letters. -/
def next (s : State) (k : Kind) (small : CodePoint) : State :=
  match s with
  | .data => inData k
  | .lessThan =>
    match k with
    | .slash => .endTagOpen
    | .bang => .escapeStart
    | k => inData k
  | .endTagOpen =>
    match k with
    | .letter => .endTagName [small]
    | k => inData k
  | .endTagName name =>
    match k with
    | .letter => .endTagName (name ++ [small])
    | .blank | .slash | .greater => if name = elementName then .left else .data
    | k => inData k
  | .escapeStart =>
    match k with
    | .dash => .escapeStartDash
    | k => inData k
  | .escapeStartDash =>
    match k with
    | .dash => .escapedDashDash
    | k => inData k
  | .escaped => inEscaped k
  | .escapedDash =>
    match k with
    | .dash => .escapedDashDash
    | k => inEscaped k
  | .escapedDashDash =>
    match k with
    | .dash => .escapedDashDash
    | .greater => .data
    | k => inEscaped k
  | .escapedLessThan =>
    match k with
    | .slash => .escapedEndTagOpen
    | .letter => .doubleEscapeStart [small]
    | k => inEscaped k
  | .escapedEndTagOpen =>
    match k with
    | .letter => .escapedEndTagName [small]
    | k => inEscaped k
  | .escapedEndTagName name =>
    match k with
    | .letter => .escapedEndTagName (name ++ [small])
    | .blank | .slash | .greater => if name = elementName then .left else .escaped
    | k => inEscaped k
  | .doubleEscapeStart name =>
    match k with
    | .letter => .doubleEscapeStart (name ++ [small])
    | .blank | .slash | .greater => if name = elementName then .doubleEscaped else .escaped
    | k => inEscaped k
  | .doubleEscaped => inDoubleEscaped k
  | .doubleEscapedDash =>
    match k with
    | .dash => .doubleEscapedDashDash
    | k => inDoubleEscaped k
  | .doubleEscapedDashDash =>
    match k with
    | .dash => .doubleEscapedDashDash
    | .greater => .data
    | k => inDoubleEscaped k
  | .doubleEscapedLessThan =>
    match k with
    | .slash => .doubleEscapeEnd []
    | k => inDoubleEscaped k
  | .doubleEscapeEnd name =>
    match k with
    | .letter => .doubleEscapeEnd (name ++ [small])
    | .blank | .slash | .greater => if name = elementName then .escaped else .doubleEscaped
    | k => inDoubleEscaped k
  | .left => .left

def step (s : State) (c : CodePoint) : State := next s (kind c) c.toAsciiLower

/-- The state behind a text. -/
def run (s : State) (t : Text) : State := t.foldl step s

/-- What stands behind the name of the tag that ends the element and the code point that ends this
name, if there is such a tag. -/
def rest? : State → Text → Option Text
  | _, [] => none
  | s, c :: t => if step s c = .left then some t else rest? (step s c) t

end SvgDeck.ScriptData
