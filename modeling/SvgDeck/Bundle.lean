/-
All that a page is made of.

`compileDocument` runs the passes over a document: unique ids, pictures, directives,
and the text as the page shows it.  Nothing is returned unless every pass succeeds.
-/
import SvgDeck.Animation
import SvgDeck.Asset

namespace SvgDeck

/-- A compiled slideshow: the document with the flows as the page shows them, the pictures, and
the texts that the page's script reads. -/
structure Bundle where
  document : Document
  fragments : Text
  narration : Text
  mapping : Text

/-- The flows of a document under their qualified ids. -/
def assignIds (d : Document) : Run (List FlowRef) := do
  let refs := d.qualified
  Run.write .debug ("Assigned " ++ Text.ofNat refs.length ++ " qualified flow ids")
  return refs

/-- A flow as the page shows it. -/
def Flow.narrated (f : Flow) : Flow := f.centre.withoutDirectives

/-- Compiles a document whose pictures are in `folder`. -/
def compileDocument (w : Workspace) (d : Document) (folder : FolderName) : Run Bundle := do
  let refs ← assignIds d
  let fragments ← buildFragments w folder (roots refs)
  let animations ← compileAnimations refs
  let document := d.rebuild (mapFlows Flow.narrated refs)
  Run.write .info
    ("Compiled " ++ Text.ofNat refs.length ++ " flows in " ++ Text.ofNat d.sections.length ++
      " sections, " ++ Text.ofNat animations.length ++ " with animations")
  return { document, fragments, narration := document.narration, mapping := animations.mapping }

end SvgDeck
