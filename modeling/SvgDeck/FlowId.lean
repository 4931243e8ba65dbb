/-
Ids of flows.

An author's id names a picture and may repeat.  A qualified id adds the position of
the flow in the document, so it is unique; the author's id, its root, can be taken
back out of it, whatever characters that holds.  An id can be qualified by any other
ordinal, too, as far as whole numbers are written.
-/
import SvgDeck.Text.Search

namespace SvgDeck

/-- What stands between the root and the ordinal of a qualified id. -/
def qualifier : Text := "__"

/-- The id for an ordinal whose numeral has no more than `limit` digits. -/
def qualifyWithin (limit : Option Nat) (root : Text) (ordinal : Int) : Except DigitFault Text :=
  (Text.writeInt limit ordinal).map fun numeral => root ++ qualifier ++ numeral

/-- The id of the flow that shows `root` at a position of the document.  No document is so long that
the numeral of a position could not be written. -/
def qualify (root : Text) (position : Nat) : Text := root ++ qualifier ++ Text.ofNat position

/-- The root of a qualified id: all that stands before its last qualifier. -/
def rootOf (id : Text) : Text :=
  match Text.cutLast? qualifier id with
  | some (root, _) => root
  | none => id

end SvgDeck
