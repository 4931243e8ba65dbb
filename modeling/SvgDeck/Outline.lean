/-
The flows of a document as a list.

`Document.flows` lists every flow with its place, in the order in which the show
passes them: a section's own flows, those of its subsections, then the next section.
`Document.rebuild` puts flows back into their places.  The passes between work on
the list: `Document.qualified` gives every flow its unique id, `Flow.centre` and
`Flow.withoutDirectives` prepare the text that the page shows.
-/
import SvgDeck.Document
import SvgDeck.FlowId

namespace SvgDeck

/-- Where a flow stands in a document. -/
structure Place where
  sectionIndex : Nat
  /-- None for the flows that a section holds itself. -/
  subsectionIndex : Option Nat
  flowIndex : Nat
deriving DecidableEq

/-- A flow, its place, and the picture it shows. -/
structure FlowRef where
  place : Place
  root : Text
  flow : Flow
deriving DecidableEq

/-! ### Listing flows -/

/-- Flows that stand side by side, with their places. -/
def listFlows (s : Nat) (k : Option Nat) (flows : List Flow) : List FlowRef :=
  flows.mapIdx fun i f => ⟨⟨s, k, i⟩, f.id, f⟩

def Section.subsectionList (sec : Section) : List Subsection := sec.subsections.getD []

def Section.flowRefs (s : Nat) (sec : Section) : List FlowRef :=
  listFlows s none sec.flows ++
    (sec.subsectionList.mapIdx fun k sub => listFlows s (some k) sub.flows).flatten

/-- Every flow of the document, in order. -/
def Document.flowRefs (d : Document) : List FlowRef :=
  (d.sections.mapIdx Section.flowRefs).flatten

/-- Every flow of the document, in order, under its qualified id. -/
def Document.qualified (d : Document) : List FlowRef :=
  d.flowRefs.mapIdx fun i ref =>
    { ref with flow := { ref.flow with id := qualify ref.root (i + 1) } }

/-- The pictures that the flows show, each once, in order. -/
def roots (refs : List FlowRef) : List Text := Text.distinct (refs.map (·.root))

/-! ### Putting flows back -/

def Section.setFlow (sec : Section) (k : Option Nat) (i : Nat) (f : Flow) : Section :=
  match k with
  | none => { sec with flows := sec.flows.set i f }
  | some k =>
    { sec with
      subsections := sec.subsections.map fun subs =>
        subs.modify k fun sub => { sub with flows := sub.flows.set i f } }

/-- The document with another flow in one place. -/
def Document.setFlow (d : Document) (p : Place) (f : Flow) : Document :=
  { d with
    sections := d.sections.modify p.sectionIndex fun sec =>
      sec.setFlow p.subsectionIndex p.flowIndex f }

/-- The document with each listed flow in its place; of two for one place the later one stays. -/
def Document.rebuild (d : Document) (refs : List FlowRef) : Document :=
  refs.foldl (fun d ref => d.setFlow ref.place ref.flow) d

/-! ### Changes to flows -/

/-- Puts the text of a centred flow into an element that centres it. -/
def Flow.centre (f : Flow) : Flow :=
  if f.centered = some true then
    { f with html := "<div class=\"centered\">" ++ f.html ++ "</div>" }
  else f

def Flow.withoutDirectives (f : Flow) : Flow := { f with focus := none, highlight := none }

/-- Applies a change to the flow of every entry. -/
def mapFlows (change : Flow → Flow) (refs : List FlowRef) : List FlowRef :=
  refs.map fun ref => { ref with flow := change ref.flow }

end SvgDeck
