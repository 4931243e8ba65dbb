/-
Nodes: the structure of a text, with every node's tag.

Aliases are replaced by the nodes they stand for.  A node that holds an alias of itself
has no end; it is unrolled to a fixed depth, deeper than the schema of documents goes, and
the alias is left where the depth ends.
-/
import SvgDeck.Yaml.Tag

namespace SvgDeck.Yaml

inductive Node where
  | scalar (tag : Tag) (text : Text)
  | sequence (tag : Tag) (items : List Node)
  | mapping (tag : Tag) (entries : List (Node × Node))
  /-- An alias inside the node that it stands for. -/
  | inside (name : Text)

namespace Node

instance : Inhabited Node := ⟨.scalar .null []⟩

/-- The node of what is left out. -/
def empty : Node := .scalar .null []

mutual

/-- The node with `node` in the place of the aliases `name`. -/
def replace (name : Text) (node : Node) : Node → Node
  | .scalar tag text => .scalar tag text
  | .sequence tag items => .sequence tag (replaceItems name node items)
  | .mapping tag entries => .mapping tag (replaceEntries name node entries)
  | .inside other => if other = name then node else .inside other

def replaceItems (name : Text) (node : Node) : List Node → List Node
  | [] => []
  | item :: items => replace name node item :: replaceItems name node items

def replaceEntries (name : Text) (node : Node) : List (Node × Node) → List (Node × Node)
  | [] => []
  | (key, value) :: entries =>
    (replace name node key, replace name node value) :: replaceEntries name node entries

end

mutual

/-- Whether the alias `name` is in a node. -/
def holds (name : Text) : Node → Bool
  | .scalar _ _ => false
  | .sequence _ items => itemsHold name items
  | .mapping _ entries => entriesHold name entries
  | .inside other => other == name

def itemsHold (name : Text) : List Node → Bool
  | [] => false
  | item :: items => holds name item || itemsHold name items

def entriesHold (name : Text) : List (Node × Node) → Bool
  | [] => false
  | (key, value) :: entries => holds name key || holds name value || entriesHold name entries

end

/-- How often a node is put into itself. -/
def unrollDepth : Nat := 4

/-- The node with the anchor `name`, put into itself in the place of its aliases. -/
def unroll (name : Text) (node : Node) : Node :=
  if node.holds name then Nat.repeat (fun inner => replace name inner node) unrollDepth node
  else node

end Node

end SvgDeck.Yaml
