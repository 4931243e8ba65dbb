/-
The schema of slideshow documents.

`Document.check` turns document data into a document or reports every fault in it,
in the order of the fields and depth first.  A setting may be given under its name
in documents or under its long name, and the sections under a name from before there
were sections.  Unknown keys are refused in subsections only.
-/
import SvgDeck.Document
import SvgDeck.Schema.Scalar

namespace SvgDeck

open Checked

/-! ### Forms of texts -/

/-- A font size: digits and points, then a unit. -/
def isFontSize (t : Text) : Bool :=
  let isPart (c : CodePoint) := c.isAsciiDigit || c = CodePoint.ofChar '.'
  let units : List Text := ["em", "px", "vmax"]
  t.takeWhile isPart ≠ [] && units.contains (t.dropWhile isPart)

/-- A color: a hash sign and three to eight hexadecimal digits. -/
def isColor : Text → Bool
  | [] => false
  | c :: digits =>
    c = CodePoint.ofChar '#' && 3 ≤ digits.length && digits.length ≤ 8 &&
      digits.all (·.hexDigit?.isSome)

/-- A border: the style in small letters, a space and a width in pixels. -/
def isBorder (t : Text) : Bool :=
  t.takeWhile CodePoint.isAsciiLower ≠ [] &&
    match t.dropWhile CodePoint.isAsciiLower with
    | [] => false
    | c :: width =>
      c = CodePoint.ofChar ' ' && width.takeWhile CodePoint.isAsciiDigit ≠ [] &&
        width.dropWhile CodePoint.isAsciiDigit = Text.ofString "px"

/-- What the id of a flow is made of. -/
def isFlowIdPart (c : CodePoint) : Bool :=
  c.isAsciiAlphanumeric || c = CodePoint.ofChar '-' || c = CodePoint.ofChar '.' ||
    c = CodePoint.ofChar '_'

/-- The id of a flow, which is also the name of a picture. -/
def isFlowId (t : Text) : Bool := t ≠ [] && t.all isFlowIdPart

def fontSize : Pattern := ⟨"^[0-9.]+(em|px|vmax)$", isFontSize⟩

def color : Pattern := ⟨"^#[0-9A-Fa-f]\x7b3,8\x7d$", isColor⟩

def border : Pattern := ⟨"^[a-z]+ [0-9]+px$", isBorder⟩

def flowId : Pattern := ⟨"^[-a-zA-Z0-9._]+$", isFlowId⟩

/-! ### Objects -/

def Flow.check : Value → Checked Flow :=
  mapping "Flow" fun entries =>
    Flow.mk <$> required "id" [] (matching flowId) entries
      <*> required "html" [] text entries
      <*> required "seconds" [] number entries
      <*> optional "centered" [] truth entries
      <*> optional "focus" [] text entries
      <*> optional "highlight" [] text entries

def checkFlows : Entries → Checked (List Flow) := required "flows" [] (list Flow.check)

/-- The finding for a key that a subsection should not have. -/
def unknownKey? (key : Value) : Option Finding :=
  match key with
  | .text t => if t = "flows" then none else some ⟨[.key t], .unknownKey⟩
  | other => some ⟨[.key other.shown], .keyNotText⟩

/-- A key with a surrogate, which is not to be compared with the names of fields. -/
def isBrokenKey : Value → Bool
  | .text t => t.any CodePoint.isSurrogate
  | _ => false

/-- The search for unknown keys ends at a broken one, and nothing else is reported then. -/
def Subsection.check : Value → Checked Subsection :=
  mapping "Subsection" fun entries =>
    if entries.any fun e => isBrokenKey e.1 then fail .notUnicode
    else (Subsection.mk <$> checkFlows entries).withFindings
      (entries.filterMap fun e => unknownKey? e.1)

def Section.check : Value → Checked Section :=
  mapping "Section" fun entries =>
    Section.mk <$> checkFlows entries
      <*> optional "subsections" [] (list Subsection.check) entries

def Settings.check (entries : Entries) : Checked Settings :=
  Settings.mk <$> required "min" ["min_size"] (matching fontSize) entries
    <*> required "max" ["max_size"] (matching fontSize) entries
    <*> optional "svgPaneBackgroundColor" ["svg_pane_background_color"] (matching color) entries
    <*> optional "textPaneBackgroundColor" ["text_pane_background_color"] (matching color) entries
    <*> optional "topBorder" ["top_border"] (matching border) entries
    <*> optional "bottomBorder" ["bottom_border"] (matching border) entries
    <*> optional "leftBorder" ["left_border"] (matching border) entries
    <*> optional "rightBorder" ["right_border"] (matching border) entries
    <*> optional "flipPanes" ["flip_panes"] truth entries
    <*> optional "landscapeOnly" ["landscape_only"] truth entries

def Document.check : Value → Checked Document :=
  mapping "Document" fun entries =>
    Document.mk <$> Settings.check entries
      <*> required "sections" ["illustration"] (list Section.check) entries

/-- One line for each fault of document data; there is none if the data is a document. -/
def Document.faults (data : Value) : List Text :=
  (Document.check data).findings.map (Finding.line "<document>")

end SvgDeck
