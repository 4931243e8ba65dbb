/-
Slideshow documents.

A document has settings and sections.  A section holds flows and, optionally,
subsections, which hold flows only.  A flow is one timed statement of text shown
beside a picture.  `Document.payload` is the document as JSON, keys in schema
order and unset options left out.
-/
import SvgDeck.Json.Printer

namespace SvgDeck

/-- A statement in the text pane, and the picture beside it. -/
structure Flow where
  /-- Names the picture; may repeat in a document as long as ids are not qualified. -/
  id : Text
  html : Text
  /-- How long the transition to this flow takes. -/
  seconds : Binary64
  centered : Option Bool
  focus : Option Text
  highlight : Option Text
deriving DecidableEq

structure Subsection where
  flows : List Flow
deriving DecidableEq

/-- The flows of a section come before those of its subsections. -/
structure Section where
  flows : List Flow
  subsections : Option (List Subsection)
deriving DecidableEq

/-- How the page looks. -/
structure Settings where
  minSize : Text
  maxSize : Text
  svgPaneBackground : Option Text
  textPaneBackground : Option Text
  topBorder : Option Text
  bottomBorder : Option Text
  leftBorder : Option Text
  rightBorder : Option Text
  flipPanes : Option Bool
  landscapeOnly : Option Bool
deriving DecidableEq

structure Document where
  settings : Settings
  sections : List Section
deriving DecidableEq

/-- A member that is always there. -/
def member (key : Text) (value : Json) : List (Text × Json) := [(key, value)]

/-- A member that is left out if its value is unset. -/
def optionalMember {α : Type} (key : Text) (toJson : α → Json) (value : Option α) :
    List (Text × Json) :=
  (value.map fun a => (key, toJson a)).toList

def Flow.payload (f : Flow) : Json :=
  .object <| List.flatten
    [member "id" (.text f.id),
      member "html" (.text f.html),
      member "seconds" (.float f.seconds),
      optionalMember "centered" .bool f.centered,
      optionalMember "focus" .text f.focus,
      optionalMember "highlight" .text f.highlight]

/-- The flows of a section or subsection. -/
def flowsMember (flows : List Flow) : List (Text × Json) :=
  member "flows" (.array (flows.map Flow.payload))

def Subsection.payload (s : Subsection) : Json := .object (flowsMember s.flows)

def Section.payload (s : Section) : Json :=
  .object <| List.flatten
    [flowsMember s.flows,
      optionalMember "subsections" (fun subs => .array (subs.map Subsection.payload))
        s.subsections]

def Settings.members (s : Settings) : List (Text × Json) :=
  List.flatten
    [member "min" (.text s.minSize),
      member "max" (.text s.maxSize),
      optionalMember "svgPaneBackgroundColor" .text s.svgPaneBackground,
      optionalMember "textPaneBackgroundColor" .text s.textPaneBackground,
      optionalMember "topBorder" .text s.topBorder,
      optionalMember "bottomBorder" .text s.bottomBorder,
      optionalMember "leftBorder" .text s.leftBorder,
      optionalMember "rightBorder" .text s.rightBorder,
      optionalMember "flipPanes" .bool s.flipPanes,
      optionalMember "landscapeOnly" .bool s.landscapeOnly]

def Document.payload (d : Document) : Json :=
  .object (d.settings.members ++ member "sections" (.array (d.sections.map Section.payload)))

/-- The document as the page's script reads it. -/
def Document.narration (d : Document) : Text := d.payload.print

end SvgDeck
