/-
Tags: what kind of value a node is.

A tag may be written; a plain scalar without one has the kind that its form shows.
-/
import SvgDeck.Yaml.Scalar.Date
import SvgDeck.Yaml.Scalar.Number

namespace SvgDeck.Yaml

inductive Tag where
  | null
  | bool
  | int
  | float
  | binary
  | timestamp
  | omap
  | pairs
  | set
  | str
  | seq
  | map
  /-- The key that merges other mappings into one. -/
  | merge
  /-- The key of a mapping's plain value. -/
  | value
  /-- A tag that stands for no kind. -/
  | unknown
deriving DecidableEq

namespace Tag

/-- The front of the tags that stand for kinds. -/
def authority : Text := "tag:yaml.org,2002:"

def names : List (Text × Tag) :=
  [("null", .null), ("bool", .bool), ("int", .int), ("float", .float), ("binary", .binary),
    ("timestamp", .timestamp), ("omap", .omap), ("pairs", .pairs), ("set", .set), ("str", .str),
    ("seq", .seq), ("map", .map), ("merge", .merge), ("value", .value)]

/-- The kind that a written tag stands for. -/
def ofText (t : Text) : Tag :=
  ((Text.after? authority t).bind fun name => names.lookup name).getD .unknown

def nullWords : List Text := ["", "~", "null", "Null", "NULL"]

/-- Indicators that stand for no value by themselves. -/
def reserved : List Text := ["!", "&", "*"]

/-- The kind that the form of a text shows. -/
def ofForm (t : Text) : Tag :=
  if isTruthForm t then .bool
  else if isFloatForm t then .float
  else if isIntForm t then .int
  else if t = "<<" then .merge
  else if nullWords.contains t then .null
  else if Timestamp.isForm t then .timestamp
  else if t = "=" then .value
  else if reserved.contains t then .unknown
  else .str

/-- The kind of a scalar without a tag; a line end behind the text does not count. -/
def ofScalar (t : Text) : Tag :=
  if t.length ≠ 1 ∧ t.getLast? = some (CodePoint.ofChar '\n') then ofForm t.dropLast else ofForm t

end Tag

end SvgDeck.Yaml
