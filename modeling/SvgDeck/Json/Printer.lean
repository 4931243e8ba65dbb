/-
JSON in print.

Members and items are separated by a comma and a space, a key and its value by a
colon and a space.  Only quotes, backslashes and controls are escaped in texts; all
other code points stand for themselves.  The special numbers have the words `NaN`,
`Infinity` and `-Infinity`.
-/
import SvgDeck.Json.Basic
import SvgDeck.Number.Shortest

namespace SvgDeck.Json

/-- One code point inside a text. -/
def escape (c : CodePoint) : Text :=
  if c = '"' then "\\\""
  else if c = '\\' then "\\\\"
  else if c = '\n' then "\\n"
  else if c = '\r' then "\\r"
  else if c = '\t' then "\\t"
  else if c.val = 0x08 then "\\b"
  else if c.val = 0x0C then "\\f"
  else if c.val < 0x20 then "\\u" ++ Text.hex 4 c.val
  else [c]

/-- A text between quotes. -/
def printText (t : Text) : Text := "\"" ++ t.flatMap escape ++ "\""

/-- A floating point number. -/
def printFloat : Binary64 → Text
  | .nan => "NaN"
  | .infinite s => Binary64.signText s ++ "Infinity"
  | x => x.text

/-- Printed parts between two brackets. -/
def bracketed (left right : CodePoint) (parts : List Text) : Text :=
  [left] ++ Text.join ", " parts ++ [right]

mutual

/-- A value in print. -/
def print : Json → Text
  | .null => "null"
  | .bool true => "true"
  | .bool false => "false"
  | .int n => Text.ofInt n
  | .float x => printFloat x
  | .text t => printText t
  | .array items => bracketed '[' ']' (printItems items)
  | .object members => bracketed '\x7b' '\x7d' (printMembers members)

def printItems : List Json → List Text
  | [] => []
  | item :: items => print item :: printItems items

def printMembers : List (Text × Json) → List Text
  | [] => []
  | (key, value) :: members => (printText key ++ ": " ++ print value) :: printMembers members

end

theorem printItems_eq_map (items : List Json) : printItems items = items.map print := by
  induction items with
  | nil => rfl
  | cons item items ih => rw [printItems, ih, List.map_cons]

theorem printMembers_eq_map (members : List (Text × Json)) :
    printMembers members = members.map fun m => printText m.1 ++ ": " ++ print m.2 := by
  induction members with
  | nil => rfl
  | cons m members ih => rw [printMembers, ih, List.map_cons]

end SvgDeck.Json
