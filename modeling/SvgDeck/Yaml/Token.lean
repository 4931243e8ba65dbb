/-
The tokens of YAML.

Indicators stand for themselves; the starts and ends of block collections come from the
indentation.  Where a text cannot be read further, its tokens end with what is wrong.
-/
import SvgDeck.Yaml.Fault

namespace SvgDeck.Yaml

/-- A line that starts with a percent sign. -/
inductive Directive where
  | version (major : Nat)
  | tagHandle (handle expansion : Text)
  /-- Any other directive, which is passed over. -/
  | unknown
deriving DecidableEq

inductive Token where
  | directive (d : Directive)
  | documentStart
  | documentEnd
  | blockSequenceStart
  | blockMappingStart
  | blockEnd
  | flowSequenceStart
  | flowSequenceEnd
  | flowMappingStart
  | flowMappingEnd
  | blockEntry
  | flowEntry
  | key
  | value
  | alias (name : Text)
  | anchor (name : Text)
  /-- A tag with the handle that expands to its front, if it has one. -/
  | tag (handle : Option Text) (suffix : Text)
  | scalar (text : Text) (plain : Bool)
  | streamEnd
  | broken (fault : Fault)

end SvgDeck.Yaml
