/-
JSON values.

Whole numbers and floating point numbers are different values, and an object
keeps its members in the order in which they were given.
-/
import SvgDeck.Number.Binary64

namespace SvgDeck

inductive Json where
  | null
  | bool (b : Bool)
  | int (n : Int)
  | float (x : Binary64)
  | text (t : Text)
  | array (items : List Json)
  | object (members : List (Text × Json))

namespace Json

instance : Inhabited Json := ⟨.null⟩

/-- The member of an object with the given key. -/
def member? (key : Text) : Json → Option Json
  | .object members => members.lookup key
  | _ => none

/-- Whether a value is neither an array nor an object. -/
def isAtom : Json → Bool
  | .array _ => false
  | .object _ => false
  | _ => true

variable {P : Json → Prop}

mutual

/-- Induction on the values that a value is made of. -/
theorem induction_on (atom : ∀ v, v.isAtom = true → P v)
    (array : ∀ items, (∀ item ∈ items, P item) → P (.array items))
    (object : ∀ members, (∀ m ∈ members, P m.2) → P (.object members)) : ∀ v, P v
  | .null => atom _ rfl
  | .bool _ => atom _ rfl
  | .int _ => atom _ rfl
  | .float _ => atom _ rfl
  | .text _ => atom _ rfl
  | .array items => array items (induction_on_items atom array object items)
  | .object members => object members (induction_on_members atom array object members)

theorem induction_on_items (atom : ∀ v, v.isAtom = true → P v)
    (array : ∀ items, (∀ item ∈ items, P item) → P (.array items))
    (object : ∀ members, (∀ m ∈ members, P m.2) → P (.object members)) :
    ∀ items : List Json, ∀ item ∈ items, P item
  | [] => List.forall_mem_nil _
  | item :: items => List.forall_mem_cons.mpr
    ⟨induction_on atom array object item, induction_on_items atom array object items⟩

theorem induction_on_members (atom : ∀ v, v.isAtom = true → P v)
    (array : ∀ items, (∀ item ∈ items, P item) → P (.array items))
    (object : ∀ members, (∀ m ∈ members, P m.2) → P (.object members)) :
    ∀ members : List (Text × Json), ∀ m ∈ members, P m.2
  | [] => List.forall_mem_nil _
  | (_, value) :: members => List.forall_mem_cons.mpr
    ⟨induction_on atom array object value, induction_on_members atom array object members⟩

end

end Json

end SvgDeck
