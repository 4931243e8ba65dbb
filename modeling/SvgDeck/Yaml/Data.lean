/-
From nodes to data.

Every node becomes a value as its tag says.  All that can be wrong is found level by
level: what is nearest to the root counts, and of two faults on one level the one that
comes first.  The contents of a collection are one level below the collection itself.
-/
import SvgDeck.Value
import SvgDeck.Yaml.Merge
import SvgDeck.Yaml.Node.Reader
import SvgDeck.Yaml.Scalar.Binary
import SvgDeck.Yaml.Tokenizer

namespace SvgDeck

namespace Value

/-- The whole number that a value is equal to. -/
def wholeNumber? : Value → Option Int
  | .bool b => some (if b then 1 else 0)
  | .int n => some n
  | .float x => x.toInt?
  | _ => none

/-- Whether two values are the same as keys; numbers of different kinds can be. -/
def isSameKey (a b : Value) : Bool :=
  match a.wholeNumber?, b.wholeNumber? with
  | some m, some n => m = n
  | some _, none => false
  | none, some _ => false
  | none, none =>
    match a, b with
    | .null, .null => true
    | .float x, .float y => x = y
    | .text s, .text t => s = t
    | .bytes s, .bytes t => s = t
    | .date s, .date t => s = t
    | _, _ => false

/-- Whether a value can be a key. -/
def isKey : Value → Bool
  | .list _ | .mapping _ | .set _ => false
  | _ => true

/-- Adds an entry; of equal keys the first stays, with the last value. -/
def putEntry (entries : List (Value × Value)) (entry : Value × Value) : List (Value × Value) :=
  if entries.any fun e => isSameKey e.1 entry.1 then
    entries.map fun e => if isSameKey e.1 entry.1 then (e.1, entry.2) else e
  else entries ++ [entry]

end Value

namespace Yaml

/-- A value, and the first fault on each level. -/
structure Leveled (α : Type) where
  faults : List (Option Fault)
  value : α

namespace Leveled

/-- The first fault on each level of two neighbours. -/
def besides : List (Option Fault) → List (Option Fault) → List (Option Fault)
  | [], b => b
  | a, [] => a
  | x :: a, y :: b => x.or y :: besides a b

def map {α β : Type} (f : α → β) (a : Leveled α) : Leveled β := ⟨a.faults, f a.value⟩

/-- Two neighbours as one value. -/
def zip {α β γ : Type} (f : α → β → γ) (a : Leveled α) (b : Leveled β) : Leveled γ :=
  ⟨besides a.faults b.faults, f a.value b.value⟩

/-- The contents of a collection, seen from the collection. -/
def inside {α : Type} (a : Leveled α) : Leveled α := ⟨none :: a.faults, a.value⟩

/-- A value with a fault on its own level. -/
def faulty {α : Type} (f : Fault) (a : α) : Leveled α := ⟨[some f], a⟩

def result {α : Type} (a : Leveled α) : Except Fault α :=
  match a.faults.findSome? id with
  | some f => .error f
  | none => .ok a.value

end Leveled

/-- A value that is made at once. -/
def ofScalarResult : Except ScalarFault Value → Leveled Value
  | .ok v => ⟨[], v⟩
  | .error f => .faulty (.breakdown (.scalar f)) .null

/-- The value of a date. -/
def dateValue (t : Text) : Except ScalarFault Value :=
  let t := if t.getLast? = some (CodePoint.ofChar '\n') then t.dropLast else t
  match Timestamp.read? t with
  | none => .error .notDate
  | some d => (d.shown.mapError .datePart).map .date

/-- The value of a text with a given tag. -/
def scalarData (tag : Tag) (t : Text) : Leveled Value :=
  match tag with
  | .null => ⟨[], .null⟩
  | .bool => ofScalarResult ((truthValue t).map .bool)
  | .int => ofScalarResult ((intValue t).map .int)
  | .float => ofScalarResult ((floatValue t).map .float)
  | .timestamp => ofScalarResult (dateValue t)
  | .str => ⟨[], .text t⟩
  | .binary =>
    match bytesOf? t with
    | some bytes => ⟨[], .bytes bytes⟩
    | none => .faulty .malformed .null
  | .seq | .omap | .pairs => .inside (.faulty .malformed (.list []))
  | .map => .inside (.faulty .malformed (.mapping []))
  | .set => .inside (.faulty .malformed (.set []))
  | .merge | .value | .unknown => .faulty .malformed .null

/-- The text that a node without its tag stands for: a mapping may have a key for it.  In a mapping
that is its own text the search has no end. -/
def textOf : Node → Except Fault Text
  | .scalar _ t => .ok t
  | .sequence _ _ => .error .malformed
  | .mapping _ entries => textIn entries
  | .inside _ => .error (.breakdown .tooDeep)
where
  textIn : List (Node × Node) → Except Fault Text
    | [] => .error .malformed
    | (key, value) :: entries => if key.tag = .value then textOf value else textIn entries

/-- Puts an entry together; what is no key must not stand in its place. -/
def entryData (key value : Leveled Value) : Leveled (Value × Value) :=
  let checked : Leveled Value :=
    if key.value.isKey then key
    else ⟨Leveled.besides key.faults [some .malformed], key.value⟩
  checked.zip Prod.mk value

/-- The value of a mapping with a given tag, from its entries. -/
def mappingData (tag : Tag) (text : Except Fault Text) (entries : Leveled (List (Value × Value))) :
    Leveled Value :=
  match tag with
  | .map => (entries.map fun es => .mapping (es.foldl Value.putEntry [])).inside
  | .set => (entries.map fun es => .set ((es.foldl Value.putEntry []).map (·.1))).inside
  | .seq | .omap | .pairs => .inside (.faulty .malformed (.list []))
  | tag =>
    match tag, text with
    | .timestamp, .ok _ => .faulty (.breakdown (.scalar .dateInMapping)) .null
    | tag, .ok t => scalarData tag t
    | _, .error f => .faulty f .null

/-- The value of a sequence with a given tag, from its items as values and as pairs. -/
def sequenceData (tag : Tag) (items pairs : Leveled (List Value)) : Leveled Value :=
  match tag with
  | .seq => (items.map .list).inside
  | .omap | .pairs => (pairs.map .list).inside
  | .map => .inside (.faulty .malformed (.mapping []))
  | .set => .inside (.faulty .malformed (.set []))
  | _ => .faulty .malformed .null

mutual

/-- The value of a node. -/
def data : Node → Leveled Value
  | .scalar tag t => scalarData tag t
  | .sequence tag items => sequenceData tag (itemsData items) (pairsData items)
  | .mapping tag entries =>
    let faults := if entries.any (·.1.isMergeKey) then [some Fault.malformed] else []
    let entryValues := entriesData entries
    mappingData tag (textOf (.mapping tag entries))
      ⟨Leveled.besides faults entryValues.faults, entryValues.value⟩
  | .inside _ => ⟨[], .null⟩

def itemsData : List Node → Leveled (List Value)
  | [] => ⟨[], []⟩
  | item :: items => (data item).zip List.cons (itemsData items)

/-- Items that should be mappings of one entry each. -/
def pairsData : List Node → Leveled (List Value)
  | [] => ⟨[], []⟩
  | item :: items => (pairData item).zip List.cons (pairsData items)

def pairData : Node → Leveled Value
  | .mapping _ [(key, value)] => (data key).zip Value.pair (data value)
  | _ => .faulty .malformed .null

def entriesData : List (Node × Node) → Leveled (List (Value × Value))
  | [] => ⟨[], []⟩
  | (key, value) :: entries =>
    -- The key of a plain value is a text like others.
    let keyValue := match key with
      | .scalar .value t => scalarData .str t
      | key => data key
    (entryData keyValue (data value)).zip List.cons (entriesData entries)

end

/-- The data that a text holds; a text without a document holds null. -/
def load (t : Text) : Except Fault Value := do
  match ← Node.ofTokens (tokens t) with
  | none => return .null
  | some root => (data (root.merged true)).result

end Yaml

end SvgDeck
