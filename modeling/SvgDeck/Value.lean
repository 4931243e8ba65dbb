/-
Document data before it is checked.

`Value` is what a data file can hold.  It has the kinds of JSON and, beyond them,
bytes, dates, sets and pairs; the keys of a mapping may be values of any kind.
`Value.ofJson` reads JSON as data.
-/
import SvgDeck.Json.Basic
import SvgDeck.Number.Shortest
import SvgDeck.Text.Quoted

namespace SvgDeck

inductive Value where
  | null
  | bool (b : Bool)
  | int (n : Int)
  | float (x : Binary64)
  | text (t : Text)
  | bytes (b : List UInt8)
  /-- A date or a point in time, as it is shown in messages. -/
  | date (shown : Text)
  | list (items : List Value)
  | mapping (entries : List (Value × Value))
  | set (items : List Value)
  | pair (first second : Value)

namespace Value

instance : Inhabited Value := ⟨.null⟩

mutual

def ofJson : Json → Value
  | .null => .null
  | .bool b => .bool b
  | .int n => .int n
  | .float x => .float x
  | .text t => .text t
  | .array items => .list (ofItems items)
  | .object members => .mapping (ofMembers members)

def ofItems : List Json → List Value
  | [] => []
  | item :: items => ofJson item :: ofItems items

def ofMembers : List (Text × Json) → List (Value × Value)
  | [] => []
  | (key, value) :: members => (.text key, ofJson value) :: ofMembers members

end

/-- One byte inside quoted bytes. -/
def escapeByte (quote : CodePoint) (b : UInt8) : Text :=
  match CodePoint.ofNat? b.toNat with
  | some c => if c.val < 0x7F then Text.escapeQuoted quote c else "\\x" ++ Text.hex 2 c.val
  | none => []

/-- A value that can be a key, as messages show it. -/
def shown : Value → Text
  | .null => "None"
  | .bool b => if b then "1" else "0"
  | .int n =>
    match Text.writeInt digitLimit n with
    | .ok numeral => numeral
    | .error _ => "<unprintable int object>"
  | .float x => x.text
  | .text t => t.quoted
  | .bytes b =>
    let quote := Text.quoteFor (b.filterMap fun x => CodePoint.ofNat? x.toNat)
    "b" ++ [quote] ++ b.flatMap (escapeByte quote) ++ [quote]
  | .date t => t
  | _ => []

/-- Whether a value is the text `key`. -/
def isText (key : Text) : Value → Bool
  | .text t => t == key
  | _ => false

/-- The value that a mapping has for a text. -/
def lookup? (key : Text) (entries : List (Value × Value)) : Option Value :=
  (entries.find? fun e => e.1.isText key).map (·.2)

end Value

end SvgDeck
