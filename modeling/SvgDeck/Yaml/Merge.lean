/-
Merge keys.

An entry with the key `<<` puts the entries of other mappings in front of those of its
own mapping, which go before them where keys are equal.  Of a list of mappings the last
one comes first.  A mapping that is merged into itself adds nothing.  A merge key with any
other value stays where it is.
-/
import SvgDeck.Yaml.Node

namespace SvgDeck.Yaml.Node

def tag : Node → Tag
  | .scalar tag _ => tag
  | .sequence tag _ => tag
  | .mapping tag _ => tag
  | .inside _ => .unknown

def isMergeKey (node : Node) : Bool := node.tag = .merge

/-- The entries of a mapping. -/
def entries? : Node → Option (List (Node × Node))
  | .mapping _ entries => some entries
  | .inside _ => some []
  | _ => none

/-- The entries that a merge key with a given value adds. -/
def mergedEntries? : Node → Option (List (Node × Node))
  | .sequence _ items => (items.mapM entries?).map fun parts => parts.reverse.flatten
  | node => node.entries?

/-- Replaces merge keys by what they add, if all of them have mappings. -/
def mergeAll (entries : List (Node × Node)) : List (Node × Node) :=
  match (entries.filter (·.1.isMergeKey)).mapM fun e => mergedEntries? e.2 with
  | some added => added.flatten ++ entries.filter (!·.1.isMergeKey)
  | none => entries

/-- Whether the entries of a mapping with this tag make up its value, so that merge keys count. -/
def mergesEntries (tag : Tag) : Bool := tag = .map || tag = .set

/-- Whether the items of a sequence with this tag are mappings of one entry, which is taken as it
is. -/
def holdsPairs (tag : Tag) : Bool := tag = .omap || tag = .pairs

mutual

/-- The node without merge keys, but for those that cannot be followed; `merges` says whether they
count in the node itself. -/
def merged (merges : Bool) : Node → Node
  | .scalar tag text => .scalar tag text
  | .sequence tag items => .sequence tag (mergedItems (!holdsPairs tag) items)
  | .mapping tag entries =>
    let entries := mergedEntries entries
    .mapping tag (if merges && mergesEntries tag then mergeAll entries else entries)
  | .inside name => .inside name

def mergedItems (merges : Bool) : List Node → List Node
  | [] => []
  | item :: items => merged merges item :: mergedItems merges items

def mergedEntries : List (Node × Node) → List (Node × Node)
  | [] => []
  | (key, value) :: entries => (merged true key, merged true value) :: mergedEntries entries

end

end SvgDeck.Yaml.Node
