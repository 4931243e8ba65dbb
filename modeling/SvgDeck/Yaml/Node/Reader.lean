/-
From tokens to nodes.

The reader follows the grammar of nodes, block collections and flow collections by
recursion, as deep as there is room for, and looks at no more than the next token.  An alias
stands for the node with its anchor, which must have come before; no anchor may be given
twice.  `ofTokens` reads a text that holds one document or none.
-/
import SvgDeck.Yaml.Node
import SvgDeck.Yaml.Token

namespace SvgDeck.Yaml

structure ReaderState where
  tokens : List Token
  /-- Anchors, with their nodes as soon as these are complete. -/
  anchors : List (Text × Option Node)
  /-- What the handles of tags stand for. -/
  handles : List (Text × Text)
  /-- How many collections are open. -/
  depth : Nat

/-- How many collections may be open at a time.  The stack has no room for more; how much of it the
caller takes makes a difference of a few. -/
def nestingLimit : Nat := 484

abbrev Reader := StateT ReaderState (Except Fault)

namespace Reader

/-- The next token, which stays. -/
def peek : Reader Token := do return (← get).tokens.head?.getD .streamEnd

def skip : Reader Unit := modify fun s => { s with tokens := s.tokens.drop 1 }

/-- Fails at a token that cannot stand where it does. -/
def unexpected {α : Type} : Token → Reader α
  | .broken f => throw f
  | _ => throw .malformed

/-- Fails if the text cannot be read to the next token. -/
def requireToken : Reader Unit := do
  match ← peek with
  | .broken f => throw f
  | _ => return

/-- Reads the inside of a collection. -/
def nested {α : Type} (content : Reader α) : Reader α := do
  if (← get).depth = nestingLimit then throw (.breakdown .tooDeep)
  modify fun s => { s with depth := s.depth + 1 }
  let a ← content
  modify fun s => { s with depth := s.depth - 1 }
  return a

/-! ### Tags and anchors -/

/-- The whole text of a tag. -/
def expandTag (handle : Option Text) (suffix : Text) : Reader Text := do
  match handle with
  | none => return suffix
  | some h =>
    match (← get).handles.lookup h with
    | some expansion => return expansion ++ suffix
    | none => throw .malformed

/-- Reads an anchor and a tag, in either order; both may be absent. -/
def readProperties : Reader (Option Text × Option Text) := do
  match ← peek with
  | .anchor name =>
    skip
    match ← peek with
    | .tag handle suffix =>
      skip
      return (some name, some (← expandTag handle suffix))
    | _ => return (some name, none)
  | .tag handle suffix =>
    skip
    match ← peek with
    | .anchor name =>
      skip
      return (some name, some (← expandTag handle suffix))
    | _ => return (none, some (← expandTag handle suffix))
  | _ => return (none, none)

/-- Whether a tag leaves the kind open. -/
def isOpen (tag : Option Text) : Bool := tag.all (· == Text.ofString "!")

/-- The kind of a scalar. -/
def scalarTag (tag : Option Text) (text : Text) (plain : Bool) : Tag :=
  match tag with
  | none => if plain then .ofScalar text else .str
  | some t => if isOpen tag then .ofScalar text else .ofText t

/-- The kind of a collection. -/
def collectionTag (tag : Option Text) (default : Tag) : Tag :=
  match tag with
  | none => default
  | some t => if isOpen tag then default else .ofText t

/-- The node that an alias stands for. -/
def aliased (name : Text) : Reader Node := do
  match (← get).anchors.lookup name with
  | none => throw .malformed
  | some none => return .inside name
  | some (some node) => return node

/-- Notes that a node with an anchor begins. -/
def openAnchor (anchor : Option Text) : Reader Unit := do
  match anchor with
  | none => return
  | some name =>
    if ((← get).anchors.lookup name).isSome then throw .malformed
    else modify fun s => { s with anchors := (name, none) :: s.anchors }

/-- Notes that a node with an anchor is complete. -/
def closeAnchor (anchor : Option Text) (node : Node) : Reader Node := do
  match anchor with
  | none => return node
  | some name =>
    let node := node.unroll name
    let complete := fun other => Node.replace name node other
    modify fun s =>
      { s with
        anchors := (name, some node) :: s.anchors.map fun (n, a) => (n, a.map complete) }
    return node

/-! ### Where a node is left out -/

def isEntryEnd : Token → Bool
  | .blockEntry | .blockEnd => true
  | _ => false

def isIndentlessEntryEnd : Token → Bool
  | .blockEntry | .key | .value | .blockEnd => true
  | _ => false

def isBlockPartEnd : Token → Bool
  | .key | .value | .blockEnd => true
  | _ => false

def isFlowKeyEnd : Token → Bool
  | .value | .flowEntry | .flowSequenceEnd | .flowMappingEnd => true
  | _ => false

def isFlowPartEnd : Token → Bool
  | .flowEntry | .flowSequenceEnd | .flowMappingEnd => true
  | _ => false

def isValue : Token → Bool
  | .value => true
  | _ => false

/-! ### Nodes -/

/-- Where a node stands. -/
inductive Context where
  /-- In a flow collection. -/
  | flow
  | block
  /-- In a block mapping, where a sequence need not be indented. -/
  | indentless
deriving DecidableEq

mutual

/-- Reads a node. -/
def readNode : Nat → Context → Reader Node
  | 0, _ => throw .malformed
  | fuel + 1, context => do
    match ← peek with
    | .alias name =>
      skip
      aliased name
    | _ =>
      let (anchor, tag) ← readProperties
      requireToken
      openAnchor anchor
      let node ← readContent fuel context tag (anchor.isSome || tag.isSome)
      closeAnchor anchor node

/-- Reads a node behind its anchor and tag. -/
def readContent : Nat → Context → Option Text → Bool → Reader Node
  | 0, _, _, _ => throw .malformed
  | fuel + 1, context, tag, hasProperties => do
    match ← peek, context with
    | .scalar text plain, _ =>
      skip
      return .scalar (scalarTag tag text plain) text
    | .flowSequenceStart, _ =>
      skip
      return .sequence (collectionTag tag .seq) (← nested (readFlowItems fuel true))
    | .flowMappingStart, _ =>
      skip
      return .mapping (collectionTag tag .map) (← nested (readFlowEntries fuel true))
    | .blockEntry, .indentless =>
      return .sequence (collectionTag tag .seq) (← nested (readIndentlessItems fuel))
    | .blockSequenceStart, .block | .blockSequenceStart, .indentless =>
      skip
      return .sequence (collectionTag tag .seq) (← nested (readBlockItems fuel))
    | .blockMappingStart, .block | .blockMappingStart, .indentless =>
      skip
      return .mapping (collectionTag tag .map) (← nested (readBlockEntries fuel))
    | t, _ =>
      if hasProperties then return .scalar (scalarTag tag [] true) []
      else unexpected t

/-- Reads a node, unless the next token shows that it is left out. -/
def readOptional : Nat → Context → (Token → Bool) → Reader Node
  | 0, _, _ => throw .malformed
  | fuel + 1, context, isEnd => do
    if isEnd (← peek) then return .empty
    else readNode fuel context

/-- Reads the value of an entry: there is one if its indicator is next. -/
def readValue : Nat → Context → (Token → Bool) → Reader Node
  | 0, _, _ => throw .malformed
  | fuel + 1, context, isEnd => do
    if isValue (← peek) then
      skip
      readOptional fuel context isEnd
    else return .empty

def readBlockItems : Nat → Reader (List Node)
  | 0 => throw .malformed
  | fuel + 1 => do
    match ← peek with
    | .blockEntry =>
      skip
      let item ← readOptional fuel .block isEntryEnd
      return item :: (← readBlockItems fuel)
    | .blockEnd =>
      skip
      return []
    | t => unexpected t

def readIndentlessItems : Nat → Reader (List Node)
  | 0 => throw .malformed
  | fuel + 1 => do
    match ← peek with
    | .blockEntry =>
      skip
      let item ← readOptional fuel .block isIndentlessEntryEnd
      return item :: (← readIndentlessItems fuel)
    | _ => return []

def readBlockEntries : Nat → Reader (List (Node × Node))
  | 0 => throw .malformed
  | fuel + 1 => do
    match ← peek with
    | .key =>
      skip
      let key ← readOptional fuel .indentless isBlockPartEnd
      let value ← readValue fuel .indentless isBlockPartEnd
      return (key, value) :: (← readBlockEntries fuel)
    | .blockEnd =>
      skip
      return []
    | t => unexpected t

/-- Reads the entry of a flow collection behind the indicator of its key. -/
def readFlowPair : Nat → Reader (Node × Node)
  | 0 => throw .malformed
  | fuel + 1 => do
    let key ← readOptional fuel .flow isFlowKeyEnd
    let value ← readValue fuel .flow isFlowPartEnd
    return (key, value)

/-- Reads what is left of a flow sequence; `first` says that no item was read yet. -/
def readFlowItems : Nat → Bool → Reader (List Node)
  | 0, _ => throw .malformed
  | fuel + 1, first => do
    match ← peek, first with
    | .flowSequenceEnd, _ =>
      skip
      return []
    | .flowEntry, false =>
      skip
      readFlowItem fuel
    | _, true => readFlowItem fuel
    | t, _ => unexpected t

/-- Reads an item of a flow sequence, unless this ends, and all items behind it. -/
def readFlowItem : Nat → Reader (List Node)
  | 0 => throw .malformed
  | fuel + 1 => do
    match ← peek with
    | .flowSequenceEnd =>
      skip
      return []
    | .key =>
      skip
      let entry ← nested (readFlowPair fuel)
      return .mapping .map [entry] :: (← readFlowItems fuel false)
    | _ =>
      let item ← readNode fuel .flow
      return item :: (← readFlowItems fuel false)

/-- Reads what is left of a flow mapping; `first` says that no entry was read yet. -/
def readFlowEntries : Nat → Bool → Reader (List (Node × Node))
  | 0, _ => throw .malformed
  | fuel + 1, first => do
    match ← peek, first with
    | .flowMappingEnd, _ =>
      skip
      return []
    | .flowEntry, false =>
      skip
      readFlowEntry fuel
    | _, true => readFlowEntry fuel
    | t, _ => unexpected t

/-- Reads an entry of a flow mapping, unless this ends, and all entries behind it. -/
def readFlowEntry : Nat → Reader (List (Node × Node))
  | 0 => throw .malformed
  | fuel + 1 => do
    match ← peek with
    | .flowMappingEnd =>
      skip
      return []
    | .key =>
      skip
      let entry ← readFlowPair fuel
      return entry :: (← readFlowEntries fuel false)
    | _ =>
      let key ← readNode fuel .flow
      return (key, .empty) :: (← readFlowEntries fuel false)

end

/-! ### Documents -/

/-- The handles that stand for something without being declared. -/
def defaultHandles : List (Text × Text) := [("!", "!"), ("!!", Tag.authority)]

/-- Reads directives, then the start of a document; `hasVersion` says that the version was given. -/
def readDirectives (hasVersion : Bool) (handles : List (Text × Text)) : List Token →
    Except Fault (List (Text × Text) × List Token)
  | .directive (.version major) :: rest =>
    if hasVersion ∨ major ≠ 1 then .error .malformed else readDirectives true handles rest
  | .directive (.tagHandle handle expansion) :: rest =>
    if (handles.lookup handle).isSome then .error .malformed
    else readDirectives hasVersion (handles ++ [(handle, expansion)]) rest
  | .directive .unknown :: rest => readDirectives hasVersion handles rest
  | .documentStart :: rest => .ok (handles ++ defaultHandles, rest)
  | .broken f :: _ => .error f
  | _ => .error .malformed

def isContentEnd : Token → Bool
  | .directive _ | .documentStart | .documentEnd | .streamEnd => true
  | _ => false

/-- Succeeds at the end of the text, which the ends of documents may come before. -/
def expectEnd : List Token → Except Fault Unit
  | .documentEnd :: rest => expectEnd rest
  | .streamEnd :: _ => .ok ()
  | .broken f :: _ => .error f
  | _ => .error .malformed

/-- Reads the root of a document and the end of the text. -/
def readRoot (handles : List (Text × Text)) (tokens : List Token) (explicit : Bool) :
    Except Fault Node := do
  let fuel := 8 * tokens.length + 8
  let isEnd := fun t => explicit && isContentEnd t
  let (root, s) ← (readOptional fuel .block isEnd).run ⟨tokens, [], handles, 0⟩
  expectEnd s.tokens
  return root

end Reader

/-- The root of the one document of a text; nothing if the text holds no document. -/
def Node.ofTokens (tokens : List Token) : Except Fault (Option Node) :=
  match tokens with
  | .streamEnd :: _ => .ok none
  | .directive _ :: _ | .documentStart :: _ => do
    let (handles, rest) ← Reader.readDirectives false [] tokens
    return some (← Reader.readRoot handles rest true)
  | _ => do return some (← Reader.readRoot Reader.defaultHandles tokens false)

end SvgDeck.Yaml
