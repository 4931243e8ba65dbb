/-
The elements that the player looks up.

A page has a pane for its pictures and one for the statements of its flows.  The player looks the
second pane up by its id and puts an element for each flow into it; to show a flow it looks up the
element of the flow, and the picture by the root of the flow's id.  All these ids share one
namespace.  Ids that stand within a picture or a statement are the author's, and left out here.
-/
import SvgDeck.Bundle

namespace SvgDeck

/-- The panes as the page holds them, with the pictures in the first one. -/
def panes (fragments : Text) : Text :=
  "<div id=\"svg-pane\">\n" ++ fragments ++ "\n</div>\n<div id=\"text-pane\"></div>\n"

/-- An element with an id: the page holds the panes and the pictures, and the player makes an
element for the statement of each flow. -/
inductive Element where
  | svgPane
  | textPane
  | picture (root : Text)
  | statement (flow : Text)
deriving DecidableEq

def Element.id : Element → Text
  | .svgPane => "svg-pane"
  | .textPane => "text-pane"
  | .picture root => root
  | .statement flow => "text-" ++ flow

/-- The first element with an id, as a lookup finds it. -/
def elementById (elements : List Element) (id : Text) : Option Element :=
  elements.find? (·.id = id)

/-- The elements of the page before the player runs, in the order of their start tags. -/
def loadedElements (pictures : List Text) : List Element :=
  .svgPane :: (pictures.map .picture ++ [.textPane])

/-- The elements with children put into one that had none. -/
def appendTo (parent : Element) (children : List Element) : List Element → List Element
  | [] => []
  | e :: elements =>
    if e = parent then e :: (children ++ elements) else e :: appendTo parent children elements

/-- The elements once the player has put the statements of the flows where it finds their pane. -/
def shownElements (pictures flows : List Text) : List Element :=
  match elementById (loadedElements pictures) "text-pane" with
  | some pane => appendTo pane (flows.map .statement) (loadedElements pictures)
  | none => loadedElements pictures

end SvgDeck
