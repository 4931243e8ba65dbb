/-
From text to tokens.

The tokenizer keeps the indentation of the open block collections and, for each level of
flow collections, the last token that a colon may still turn into a key.  When the colon
comes, the tokens that mark the key are put in front of that token.  A key stands on one
line and within 1024 code points.  `tokens` gives all tokens of a text.  If it cannot be
read to its end, the last token says why and takes the place of all that come behind the
first possible key.
-/
import SvgDeck.Yaml.Property
import SvgDeck.Yaml.Scalar.Block
import SvgDeck.Yaml.Scalar.Plain
import SvgDeck.Yaml.Scalar.Quoted

namespace SvgDeck.Yaml

/-- A token that may turn out to be a key. -/
structure PossibleKey where
  /-- The number of tokens before it. -/
  position : Nat
  /-- Whether only a key can stand here. -/
  required : Bool
  index : Nat
  line : Nat
  column : Nat

structure Tokenizer where
  cursor : Cursor
  /-- The tokens so far, the last one first. -/
  output : List Token
  flowLevel : Nat
  /-- The column of the innermost open block collection; -1 outside of all. -/
  indent : Int
  /-- The columns of the others, the innermost first. -/
  outer : List Int
  /-- Whether a key may begin here. -/
  keyAllowed : Bool
  /-- The possible keys by level. -/
  keys : List (Nat × PossibleKey)

namespace Tokenizer

def start (t : Text) : Tokenizer where
  cursor := .start t
  output := []
  flowLevel := 0
  indent := -1
  outer := []
  keyAllowed := true
  keys := []

def emit (s : Tokenizer) (t : Token) : Tokenizer := { s with output := t :: s.output }

/-- Puts a token where `position` others stand before it. -/
def insert (s : Tokenizer) (position : Nat) (t : Token) : Tokenizer :=
  let behind := s.output.length - position
  { s with output := s.output.take behind ++ t :: s.output.drop behind }

def column (s : Tokenizer) : Int := s.cursor.column

def skip (s : Tokenizer) (n : Nat) : Tokenizer := { s with cursor := s.cursor.advance n }

/-- Emits a token of `n` code points. -/
def take (s : Tokenizer) (n : Nat) (t : Token) : Tokenizer := (s.emit t).skip n

/-- Emits a token that was read from the text up to `rest`. -/
def takeUpTo (s : Tokenizer) (rest : Text) (t : Token) : Tokenizer :=
  let s := s.emit t
  { s with cursor := s.cursor.upTo rest }

def allowKey (s : Tokenizer) (b : Bool) : Tokenizer := { s with keyAllowed := b }

/-! ### Possible keys -/

def keyHere? (s : Tokenizer) : Option PossibleKey := s.keys.lookup s.flowLevel

def dropKey (s : Tokenizer) : Tokenizer :=
  { s with keys := s.keys.filter fun k => k.1 ≠ s.flowLevel }

/-- Gives up the possible key of this level; one that is required must not be given up. -/
def forgetKey (s : Tokenizer) : Except Fault Tokenizer :=
  if s.keyHere?.any (·.required) then .error .malformed else .ok s.dropKey

/-- Whether a colon here would come too late for a key. -/
def isStale (s : Tokenizer) (k : PossibleKey) : Bool :=
  k.line ≠ s.cursor.line || 1024 < s.cursor.index - k.index

def forgetStaleKeys (s : Tokenizer) : Except Fault Tokenizer :=
  if s.keys.any fun k => s.isStale k.2 && k.2.required then .error .malformed
  else .ok { s with keys := s.keys.filter fun k => !s.isStale k.2 }

/-- Notes that the next token may be a key. -/
def noteKey (s : Tokenizer) : Except Fault Tokenizer :=
  if !s.keyAllowed then .ok s
  else do
    let required : Bool := s.flowLevel = 0 ∧ s.indent = s.column
    let s ← s.forgetKey
    let key : PossibleKey :=
      ⟨s.output.length, required, s.cursor.index, s.cursor.line, s.cursor.column⟩
    return { s with keys := (s.flowLevel, key) :: s.keys }

/-! ### Indentation -/

/-- Emits the end of each collection in `outer` that is indented further than `column`. -/
def unwindTo (column : Int) (s : Tokenizer) : List Int → Tokenizer
  | [] => s
  | next :: outer =>
    if column < s.indent then
      unwindTo column { s.emit .blockEnd with indent := next, outer } outer
    else s

/-- Ends the block collections that are indented further than `column`. -/
def unwind (s : Tokenizer) (column : Int) : Tokenizer :=
  if s.flowLevel = 0 then unwindTo column s s.outer else s

/-- Opens a block collection at a column; whether that was one further in. -/
def openAt (s : Tokenizer) (column : Int) : Tokenizer × Bool :=
  if s.indent < column then ({ s with indent := column, outer := s.indent :: s.outer }, true)
  else (s, false)

/-- Opens a block collection here, if this is further in than the last. -/
def openHere (s : Tokenizer) (t : Token) : Tokenizer :=
  if s.flowLevel ≠ 0 then s
  else
    let (s, isNew) := s.openAt s.column
    if isNew then s.emit t else s

/-- Outside of flow collections, an entry or a key may begin only where a key is allowed. -/
def requireStart (s : Tokenizer) : Except Fault Unit :=
  require (s.flowLevel ≠ 0 || s.keyAllowed)

/-! ### Tokens -/

/-- Ends all collections before a directive, a marker or the end. -/
def closeAll (s : Tokenizer) : Except Fault Tokenizer := do
  let s ← (s.unwind (-1)).forgetKey
  return s.allowKey false

def takeEnd (s : Tokenizer) : Except Fault Tokenizer := do
  let s ← s.closeAll
  return { s.emit .streamEnd with keys := [] }

def takeDirective (s : Tokenizer) : Except Fault Tokenizer := do
  let s ← s.closeAll
  let (d, rest) ← readDirective (s.cursor.rest.drop 1)
  return s.takeUpTo rest (.directive d)

def takeMarker (s : Tokenizer) (t : Token) : Except Fault Tokenizer := do
  let s ← s.closeAll
  return s.take 3 t

def takeFlowStart (s : Tokenizer) (t : Token) : Except Fault Tokenizer := do
  let s ← s.noteKey
  return { s.take 1 t with flowLevel := s.flowLevel + 1, keyAllowed := true }

def takeFlowEnd (s : Tokenizer) (t : Token) : Except Fault Tokenizer := do
  let s ← s.forgetKey
  return { s.take 1 t with flowLevel := s.flowLevel - 1, keyAllowed := false }

def takeFlowEntry (s : Tokenizer) : Except Fault Tokenizer := do
  let s ← s.forgetKey
  return (s.take 1 .flowEntry).allowKey true

def takeBlockEntry (s : Tokenizer) : Except Fault Tokenizer := do
  s.requireStart
  let s ← (s.openHere .blockSequenceStart).forgetKey
  return (s.take 1 .blockEntry).allowKey true

def takeKey (s : Tokenizer) : Except Fault Tokenizer := do
  s.requireStart
  let s ← (s.openHere .blockMappingStart).forgetKey
  return (s.take 1 .key).allowKey (s.flowLevel = 0)

/-- A colon turns the possible key of this level into a key; if there is none, the key is empty. -/
def takeValue (s : Tokenizer) : Except Fault Tokenizer :=
  match s.keyHere? with
  | some k =>
    let s := s.dropKey.insert k.position .key
    let (s, isNew) := if s.flowLevel = 0 then s.openAt k.column else (s, false)
    let s := if isNew then s.insert k.position .blockMappingStart else s
    .ok ((s.take 1 .value).allowKey false)
  | none => do
    s.requireStart
    let s ← ((s.openHere .blockMappingStart).allowKey (s.flowLevel = 0)).forgetKey
    return s.take 1 .value

/-- A name behind an ampersand or an asterisk. -/
def takeName (s : Tokenizer) (t : Text → Token) : Except Fault Tokenizer := do
  let s ← s.noteKey
  let (name, rest) ← readName (s.cursor.rest.drop 1)
  return (s.takeUpTo rest (t name)).allowKey false

def takeTag (s : Tokenizer) : Except Fault Tokenizer := do
  let s ← s.noteKey
  let (t, rest) ← readTag (s.cursor.rest.drop 1)
  return (s.takeUpTo rest t).allowKey false

def takeBlockScalar (s : Tokenizer) (folded : Bool) : Except Fault Tokenizer := do
  let s ← (s.allowKey true).forgetKey
  let (text, cursor) ← Block.read folded s.indent s.cursor.next
  return { s.emit (.scalar text false) with cursor }

def takeQuoted (s : Tokenizer) (double : Bool) : Except Fault Tokenizer := do
  let s ← s.noteKey
  let (text, rest) ← Quoted.read double (.text .none) (s.cursor.rest.drop 1)
  return (s.takeUpTo rest (.scalar text false)).allowKey false

def takePlain (s : Tokenizer) : Except Fault Tokenizer := do
  let s ← s.noteKey
  let (text, cursor, passedBreak) := Plain.read (s.flowLevel ≠ 0) s.indent s.cursor
  return { s.emit (.scalar text true) with cursor, keyAllowed := passedBreak }

/-- Whether a plain scalar can begin with `c`, with `next` behind it. -/
def startsPlain (inFlow : Bool) (c : CodePoint) (next : Option CodePoint) : Bool :=
  !(isGap c || isBreak c || oneOf "-?:,[]\x7b\x7d#&*!|>'\"%@\x60" c) ||
    (!endsWord next && (oneOf "-" c || (!inFlow && oneOf "?:" c)))

/-! ### Steps -/

/-- Goes over the white space and comments before a token. -/
def skipGap (s : Tokenizer) : Tokenizer :=
  let s := if s.cursor.index = 0 ∧ (s.cursor.peek 0).any (·.val == 0xFEFF) then s.skip 1 else s
  let (n, hasBreak) := gapLength false s.cursor.rest
  (s.skip n).allowKey (s.keyAllowed || (hasBreak && s.flowLevel = 0))

/-- Takes the token that begins with `c`. -/
def takeToken (s : Tokenizer) (c : CodePoint) : Except Fault Tokenizer :=
  let next := s.cursor.peek 1
  let inFlow : Bool := s.flowLevel ≠ 0
  let atStart : Bool := s.cursor.column = 0
  if atStart && c = '%' then s.takeDirective
  else if atStart && isMarker '-' s.cursor.rest then s.takeMarker .documentStart
  else if atStart && isMarker '.' s.cursor.rest then s.takeMarker .documentEnd
  else if c = '[' then s.takeFlowStart .flowSequenceStart
  else if c = '\x7b' then s.takeFlowStart .flowMappingStart
  else if c = ']' then s.takeFlowEnd .flowSequenceEnd
  else if c = '\x7d' then s.takeFlowEnd .flowMappingEnd
  else if c = ',' then s.takeFlowEntry
  else if c = '-' && endsWord next then s.takeBlockEntry
  else if c = '?' && (inFlow || endsWord next) then s.takeKey
  else if c = ':' && (inFlow || endsWord next) then s.takeValue
  else if c = '*' then s.takeName .alias
  else if c = '&' then s.takeName .anchor
  else if c = '!' then s.takeTag
  else if c = '|' && !inFlow then s.takeBlockScalar false
  else if c = '>' && !inFlow then s.takeBlockScalar true
  else if c = '\'' then s.takeQuoted false
  else if c = '"' then s.takeQuoted true
  else if startsPlain inFlow c next then s.takePlain
  else .error .malformed

/-- Goes on to the next token; nothing is left to be done after the end of the text. -/
def step (s : Tokenizer) : Except Fault (Tokenizer × Bool) := do
  let s ← s.skipGap.forgetStaleKeys
  let s := s.unwind s.column
  match s.cursor.rest with
  | [] => return (← s.takeEnd, true)
  | c :: _ => return (← s.takeToken c, false)

/-- The number of tokens that no key can be put in front of any more. -/
def settled (s : Tokenizer) : Nat :=
  (s.keys.filter fun k => !s.isStale k.2).foldl (fun n k => min n k.2.position) s.output.length

/-- The tokens of a text that cannot be read further. -/
def brokenBy (s : Tokenizer) (f : Fault) : List Token :=
  .broken f :: s.output.drop (s.output.length - s.settled)

/-- Takes all tokens that are left; the result has the last one first. -/
def run (s : Tokenizer) : List Token :=
  match s.step with
  | .error f => s.brokenBy f
  | .ok (next, isDone) =>
    if isDone then next.output
    else if _h : next.cursor.rest.length < s.cursor.rest.length then run next
    else .broken .malformed :: next.output
termination_by s.cursor.rest.length

end Tokenizer

/-- Code points that may stand in a text. -/
def isAllowed (c : CodePoint) : Bool :=
  c.val == 0x09 || c.val == 0x0A || c.val == 0x0D || c.isBetween 0x20 0x7E || c.val == 0x85 ||
    c.isBetween 0xA0 0xD7FF || c.isBetween 0xE000 0xFFFD || c.isBetween 0x10000 0x10FFFF

/-- The tokens of a text. -/
def tokens (t : Text) : List Token :=
  if t.all isAllowed then (Tokenizer.start t).run.reverse else [.broken .malformed]

end SvgDeck.Yaml
