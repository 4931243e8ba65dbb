/-
Checks that report every fault.

A check either accepts a value or gives one or more findings.  When checks stand
side by side, as for the fields of an object or the items of a list, all of them
run and the findings come in the order of the checks, so no fault hides another.
-/
import SvgDeck.Schema.Finding
import SvgDeck.Value

namespace SvgDeck

/-- A value that passed its checks, or at least one finding. -/
inductive Checked (α : Type) where
  | valid (a : α)
  | invalid (first : Finding) (more : List Finding)

namespace Checked

variable {α β : Type}

/-- The findings; there are none exactly if the value is valid. -/
def findings : Checked α → List Finding
  | .valid _ => []
  | .invalid first more => first :: more

def toExcept : Checked α → Except (List Finding) α
  | .valid a => .ok a
  | .invalid first more => .error (first :: more)

/-- A single finding at the value itself. -/
def fail (p : Problem) : Checked α := .invalid ⟨[], p⟩ []

def map (f : α → β) : Checked α → Checked β
  | .valid a => .valid (f a)
  | .invalid first more => .invalid first more

/-- Both checks run; the findings of the first come first. -/
def seq : Checked (α → β) → Checked α → Checked β
  | .valid f, .valid a => .valid (f a)
  | .valid _, .invalid first more => .invalid first more
  | .invalid first more, c => .invalid first (more ++ c.findings)

/-- Locates the findings one step further in. -/
def under (step : Step) : Checked α → Checked α
  | .valid a => .valid a
  | .invalid first more => .invalid (first.under step) (more.map (Finding.under step))

/-- Adds findings behind those that are there. -/
def withFindings (c : Checked α) : List Finding → Checked α
  | [] => c
  | f :: fs =>
    match c with
    | .valid _ => .invalid f fs
    | .invalid first more => .invalid first (more ++ f :: fs)

/-- A check whose input depends on the value of another one. -/
def bind (c : Checked α) (next : α → Checked β) : Checked β :=
  match c with
  | .valid a => next a
  | .invalid first more => .invalid first more

instance : Functor Checked where
  map := map

instance : Seq Checked where
  seq f a := f.seq (a ())

/-- Checks each item; `n` is the index of the first. -/
def items (check : Value → Checked α) : Nat → List Value → Checked (List α)
  | _, [] => .valid []
  | n, v :: vs => (((check v).under (.index n)).map List.cons).seq (items check (n + 1) vs)

/-- Checks a value that should be a list of such values. -/
def list (check : Value → Checked α) : Value → Checked (List α)
  | .list vs => items check 0 vs
  | .set vs => items check 0 vs
  | _ => fail .notList

/-! ### Fields -/

/-- The entries of a mapping with text keys and others. -/
abbrev Entries := List (Value × Value)

/-- The value of the first of `names` that is present, with the name it was found under. -/
def find? (names : List Text) (entries : Entries) : Option (Text × Value) :=
  names.findSome? fun name => (Value.lookup? name entries).map (name, ·)

/-- A field that has to be present under `name` or one of `others`. -/
def required (name : Text) (others : List Text) (check : Value → Checked α) (entries : Entries) :
    Checked α :=
  match find? (name :: others) entries with
  | some (found, v) => (check v).under (.key found)
  | none => (fail .missing).under (.key name)

/-- A field that may be absent or null. -/
def optional (name : Text) (others : List Text) (check : Value → Checked α) (entries : Entries) :
    Checked (Option α) :=
  match find? (name :: others) entries with
  | some (_, .null) => .valid none
  | some (found, v) => ((check v).under (.key found)).map some
  | none => .valid none

/-- Checks the entries of a value that should be a mapping; `model` names what it describes. -/
def mapping (model : Text) (check : Entries → Checked α) : Value → Checked α
  | .mapping entries => check entries
  | _ => fail (.notMapping model)

end Checked

end SvgDeck
