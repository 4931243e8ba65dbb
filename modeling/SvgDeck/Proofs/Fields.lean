/-
The schema as a table.

Each kind of object has a list of fields (`Model.fields`), and a field has the names it may be
given under, the one in use being the first that is there, and what its value should be.  The
checks of the schema are read off the table: what an object is read as depends on its fields
alone (`Model.check_of_fields`), and its findings are those of its fields, one after the other,
and then the keys it should not have (`Model.findings_object`).

* `Model.nodup_names` — no two fields of an object share a name.
* `Model.check_of_fields` — data in which every field of an object is read as before.
* `Slot.findings_object`, `Slot.findings_list` — the findings of a whole from those of its parts.
-/
import SvgDeck.Proofs.Payload

namespace SvgDeck

/-! ### Findings of the combinators -/

namespace Checked

variable {α β : Type}

@[simp] theorem findings_map {f : α → β} {c : Checked α} : (f <$> c).findings = c.findings := by
  show (c.map f).findings = _
  cases c <;> rfl

@[simp] theorem findings_seq {f : Checked (α → β)} {c : Checked α} :
    (f <*> c).findings = f.findings ++ c.findings := by
  show (f.seq c).findings = _
  cases f <;> cases c <;> simp [seq, findings]

@[simp] theorem findings_under {step : Step} {c : Checked α} :
    (c.under step).findings = c.findings.map (.under step) := by
  cases c <;> rfl

@[simp] theorem findings_withFindings {c : Checked α} {fs : List Finding} :
    (c.withFindings fs).findings = c.findings ++ fs := by
  cases fs <;> cases c <;> simp [withFindings, findings]

theorem findings_items {check : Value → Checked α} {n : Nat} {vs : List Value} :
    (items check n vs).findings =
      (vs.zipIdx n).flatMap fun v => (check v.1).findings.map (.under (.index v.2)) := by
  induction vs generalizing n with
  | nil => rfl
  | cons v vs ih =>
    rw [items]
    show (List.cons <$> (check v).under (.index n) <*> items check (n + 1) vs).findings = _
    rw [findings_seq, findings_map, findings_under, ih, List.zipIdx_cons, List.flatMap_cons]

/-! ### Checks that accept what others accept -/

/-- What `c` accepts, `c'` accepts as well, and as the same. -/
def Within (c c' : Checked α) : Prop := ∀ a, c = .valid a → c' = .valid a

theorem Within.refl (c : Checked α) : c.Within c := fun _ h => h

theorem Within.map {f : α → β} {c c' : Checked α} (h : c.Within c') :
    (f <$> c).Within (f <$> c') := by
  intro b hb
  obtain ⟨a, ha, rfl⟩ := map_eq_valid.mp hb
  exact map_valid (h a ha)

theorem Within.seq {f f' : Checked (α → β)} {c c' : Checked α} (hf : f.Within f')
    (hc : c.Within c') : (f <*> c).Within (f' <*> c') := by
  intro b hb
  obtain ⟨g, a, hg, ha, rfl⟩ := seq_eq_valid.mp hb
  exact seq_valid (hf g hg) (hc a ha)

theorem Within.under {c c' : Checked α} {step step' : Step} (h : c.Within c') :
    (c.under step).Within (c'.under step') := fun a ha =>
  under_eq_valid.mpr (h a (under_eq_valid.mp ha))

theorem Within.items {check : Value → Checked α} {n : Nat} {vs vs' : List Value}
    (h : List.Forall₂ (fun v v' => (check v).Within (check v')) vs vs') :
    (items check n vs).Within (items check n vs') := by
  induction h generalizing n with
  | nil => exact .refl _
  | cons hv _ ih => exact .seq (.map hv.under) ih

end Checked

namespace Schema

open Checked

/-! ### The table -/

/-- The kinds of object in document data. -/
inductive Model where
  | document
  | topSection
  | subsection
  | flow
deriving DecidableEq

/-- What a value in document data should be. -/
inductive Slot where
  | object (m : Model)
  | list (m : Model)
  | text
  | matching (p : Pattern)
  | number
  | truth
  /-- A value that is never looked at. -/
  | any

/-- A field of an object: its name in documents, the other names it may have, and what its value
should be. -/
inductive Field where
  | required (name : Text) (others : List Text) (slot : Slot)
  /-- May be absent or null. -/
  | optional (name : Text) (others : List Text) (slot : Slot)

namespace Field

def name : Field → Text
  | .required name _ _ => name
  | .optional name _ _ => name

/-- The names of a field, those that are preferred first. -/
def names : Field → List Text
  | .required name others _ => name :: others
  | .optional name others _ => name :: others

def slot : Field → Slot
  | .required _ _ slot => slot
  | .optional _ _ slot => slot

def isRequired : Field → Bool
  | .required .. => true
  | .optional .. => false

end Field

/-- The fields of an object, in the order of their findings. -/
def Model.fields : Model → List Field
  | .document =>
    [.required "min" ["min_size"] (.matching fontSize),
      .required "max" ["max_size"] (.matching fontSize),
      .optional "svgPaneBackgroundColor" ["svg_pane_background_color"] (.matching color),
      .optional "textPaneBackgroundColor" ["text_pane_background_color"] (.matching color),
      .optional "topBorder" ["top_border"] (.matching border),
      .optional "bottomBorder" ["bottom_border"] (.matching border),
      .optional "leftBorder" ["left_border"] (.matching border),
      .optional "rightBorder" ["right_border"] (.matching border),
      .optional "flipPanes" ["flip_panes"] .truth,
      .optional "landscapeOnly" ["landscape_only"] .truth,
      .required "sections" ["illustration"] (.list .topSection)]
  | .topSection =>
    [.required "flows" [] (.list .flow),
      .optional "subsections" [] (.list .subsection)]
  | .subsection => [.required "flows" [] (.list .flow)]
  | .flow =>
    [.required "id" [] (.matching flowId),
      .required "html" [] .text,
      .required "seconds" [] .number,
      .optional "centered" [] .truth,
      .optional "focus" [] .text,
      .optional "highlight" [] .text]

/-- The object has a field of this name. -/
def Model.Knows (m : Model) (key : Text) : Prop := ∃ f ∈ m.fields, key ∈ f.names

instance (m : Model) (key : Text) : Decidable (m.Knows key) :=
  inferInstanceAs (Decidable (∃ f ∈ m.fields, key ∈ f.names))

theorem Model.nodup_names (m : Model) : (m.fields.flatMap Field.names).Nodup := by
  cases m <;> decide

/-- A name belongs to one field only. -/
theorem Model.eq_of_mem_names {m : Model} {f g : Field} {key : Text} (hf : f ∈ m.fields)
    (hg : g ∈ m.fields) (hkf : key ∈ f.names) (hkg : key ∈ g.names) : f = g := by
  have hdisjoint := (List.nodup_flatMap.mp m.nodup_names).2
  have : Std.Symm (Function.onFun List.Disjoint Field.names) := ⟨fun _ _ h => h.symm⟩
  by_contra hne
  exact hdisjoint.forall hf hg hne hkf hkg

theorem Model.knows_subsection {key : Text} :
    Model.subsection.Knows key ↔ key = Text.ofString "flows" := by
  simp [Knows, fields, Field.names]

/-! ### The checks of the schema -/

/-- What an object is read as. -/
@[reducible] def Model.Result : Model → Type
  | .document => Document
  | .topSection => Section
  | .subsection => Subsection
  | .flow => Flow

def Model.check : (m : Model) → Value → Checked m.Result
  | .document => Document.check
  | .topSection => Section.check
  | .subsection => Subsection.check
  | .flow => Flow.check

@[reducible] def Slot.Result : Slot → Type
  | .object m => m.Result
  | .list m => List m.Result
  | .text => Text
  | .matching _ => Text
  | .number => Binary64
  | .truth => Bool
  | .any => Unit

def Slot.check : (s : Slot) → Value → Checked s.Result
  | .object m => m.check
  | .list m => Checked.list m.check
  | .text => Checked.text
  | .matching p => Checked.matching p
  | .number => Checked.number
  | .truth => Checked.truth
  | .any => fun _ => .valid ()

@[reducible] def Field.Result : Field → Type
  | .required _ _ slot => slot.Result
  | .optional _ _ slot => Option slot.Result

def Field.check : (f : Field) → Entries → Checked f.Result
  | .required name others slot => Checked.required name others slot.check
  | .optional name others slot => Checked.optional name others slot.check

/-! ### Members of an object -/

/-- The value of a field, with the name it is given under. -/
def Field.inUse? (f : Field) (members : List (Text × Json)) : Option (Text × Json) :=
  f.names.findSome? fun name => (members.lookup name).map (name, ·)

/-- The value stands for none. -/
def Field.leavesOut : Field → Json → Bool
  | .optional .., .null => true
  | _, _ => false

section Members

variable {f : Field} {key : Text} {j : Json} {members : List (Text × Json)}

/-- What is in use is a member under one of the names. -/
theorem Field.of_inUse? (h : f.inUse? members = some (key, j)) :
    key ∈ f.names ∧ members.lookup key = some j := by
  obtain ⟨name, hname, h⟩ := List.exists_of_findSome?_eq_some h
  obtain ⟨v, hv, h⟩ := Option.map_eq_some_iff.mp h
  cases h
  exact ⟨hname, hv⟩

theorem find?_ofMembers (f : Field) (members : List (Text × Json)) :
    find? f.names (Value.ofMembers members) = (f.inUse? members).map (Prod.map id .ofJson) := by
  rw [find?, Field.inUse?]
  induction f.names with
  | nil => rfl
  | cons name names ih =>
    rw [List.findSome?_cons, List.findSome?_cons, lookup?_ofMembers, ih]
    cases members.lookup name <;> rfl

theorem ofMembers_eq_map :
    Value.ofMembers members = members.map fun e => (.text e.1, .ofJson e.2) := by
  induction members with
  | nil => rfl
  | cons e members ih => rw [Value.ofMembers, ih, List.map_cons]

end Members

/-! ### Findings -/

/-- What is wrong with a value that should be of the kind `s`. -/
def Slot.findings (s : Slot) (j : Json) : List Finding := (s.check (.ofJson j)).findings

/-- What is wrong with a field: what is wrong with its value, or that it has none. -/
def Field.findings (f : Field) (members : List (Text × Json)) : List Finding :=
  match f.inUse? members with
  | some (key, j) => if f.leavesOut j then [] else (f.slot.findings j).map (.under (.key key))
  | none => if f.isRequired then [⟨[.key f.name], .missing⟩] else []

/-- The keys that an object should not have; only subsections should have none but their own. -/
def Model.unknownKeys (m : Model) (members : List (Text × Json)) : List Finding :=
  if m = .subsection then
    (members.filter fun e => decide (¬ m.Knows e.1)).map fun e => ⟨[.key e.1], .unknownKey⟩
  else []

/-- A key is broken, and checking the object ends there; only subsections look at all their keys. -/
def Model.BreaksOff (m : Model) (members : List (Text × Json)) : Prop :=
  m = .subsection ∧ ∃ key ∈ members.map Prod.fst, ¬ key.IsUnicode

section Findings

variable {m : Model} {f : Field} {members : List (Text × Json)} {x : Finding}

theorem findings_check : (f.check (Value.ofMembers members)).findings = f.findings members := by
  have hfind := find?_ofMembers f members
  rw [Field.findings]
  generalize f.inUse? members = o at hfind ⊢
  cases f with
  | required name others slot =>
    cases o with
    | none => exact congrArg findings (required_of_none hfind)
    | some x => exact (congrArg findings (required_of_find? hfind)).trans findings_under
  | optional name others slot =>
    cases o with
    | none => exact congrArg findings (optional_of_none hfind)
    | some x =>
      obtain ⟨key, j⟩ := x
      by_cases hj : j = .null
      · subst hj
        exact congrArg findings (optional_of_null hfind)
      · have hout : Field.leavesOut (.optional name others slot) j = false := by
          cases j <;> first | rfl | exact absurd rfl hj
        simp only [hout]
        exact (congrArg findings (optional_of_find? hfind (ofJson_ne_null hj))).trans
          (findings_map.trans findings_under)

theorem filterMap_unknownKey? :
    (Value.ofMembers members).filterMap (fun e => unknownKey? e.1) =
      Model.subsection.unknownKeys members := by
  rw [Model.unknownKeys, if_pos rfl, ofMembers_eq_map, List.filterMap_map]
  induction members with
  | nil => rfl
  | cons e members ih =>
    rw [List.filterMap_cons, List.filter_cons, ih]
    by_cases h : e.1 = Text.ofString "flows"
    · simp [Model.knows_subsection, unknownKey?, h]
    · simp [Model.knows_subsection, unknownKey?, h]

theorem any_isBrokenKey :
    ((Value.ofMembers members).any fun e => isBrokenKey e.1) = true ↔
      Model.subsection.BreaksOff members := by
  simp [ofMembers_eq_map, isBrokenKey, Model.BreaksOff, Text.IsUnicode]

theorem mem_unknownKeys :
    x ∈ m.unknownKeys members ↔
      m = .subsection ∧ ∃ e ∈ members, ¬ m.Knows e.1 ∧ x = ⟨[.key e.1], .unknownKey⟩ := by
  rw [Model.unknownKeys]
  split
  · next hm =>
    simp only [hm, List.mem_map, List.mem_filter, decide_eq_true_eq, and_assoc, true_and,
      @eq_comm _ x]
  · next hm => simp [hm]

/-- A broken key is a name of no field. -/
theorem Model.not_breaksOff (h : m.unknownKeys members = []) : ¬ m.BreaksOff members := by
  rintro ⟨rfl, key, hmem, hkey⟩
  obtain ⟨e, he, rfl⟩ := List.mem_map.mp hmem
  have hknows : ¬ Model.subsection.Knows e.1 := by
    rw [Model.knows_subsection]
    intro heq
    exact hkey (heq ▸ Text.isUnicode_ofString _)
  have hunknown := mem_unknownKeys.mpr ⟨rfl, e, he, hknows, rfl⟩
  rw [h] at hunknown
  cases hunknown

/-- The findings of an object: its fields one after the other, then the keys it should not
have. -/
theorem Slot.findings_object (h : ¬ m.BreaksOff members) :
    (Slot.object m).findings (.object members) =
      m.fields.flatMap (·.findings members) ++ m.unknownKeys members := by
  simp only [← findings_check]
  cases m with
  | subsection =>
    rw [← any_isBrokenKey] at h
    simp [Slot.findings, Slot.check, Model.check, Model.fields, Field.check, Subsection.check,
      checkFlows, Value.ofJson, mapping, filterMap_unknownKey?, h]
  | _ =>
    simp [Slot.findings, Slot.check, Model.check, Model.fields, Field.check, Document.check,
      Settings.check, Section.check, Flow.check, checkFlows, Value.ofJson, mapping,
      Model.unknownKeys]

/-- The findings of a list: its items one after the other. -/
theorem Slot.findings_list (m : Model) (items : List Json) :
    (Slot.list m).findings (.array items) =
      items.zipIdx.flatMap fun item =>
        ((Slot.object m).findings item.1).map (.under (.index item.2)) := by
  show (Checked.items m.check 0 (Value.ofItems items)).findings = _
  rw [findings_items, ofItems_eq_map, List.zipIdx_map, List.flatMap_map]
  rfl

end Findings

/-! ### Data in which every field is read as before -/

theorem Model.check_of_fields {m : Model} {members members' : List (Text × Json)}
    (hfields : ∀ f ∈ m.fields, (f.check (Value.ofMembers members)).Within
      (f.check (Value.ofMembers members')))
    (hkeys : m.unknownKeys members = [] → m.unknownKeys members' = []) :
    (m.check (.ofJson (.object members))).Within (m.check (.ofJson (.object members'))) := by
  cases m with
  | document =>
    simp only [Model.fields, List.forall_mem_cons] at hfields
    obtain ⟨hmin, hmax, hsvg, htext, htop, hbottom, hleft, hright, hflip, hlandscape, hsections,
      _⟩ := hfields
    have hsettings : (Settings.check (Value.ofMembers members)).Within
        (Settings.check (Value.ofMembers members')) :=
      .seq (.seq (.seq (.seq (.seq (.seq (.seq (.seq (.seq (.map hmin) hmax) hsvg) htext) htop)
        hbottom) hleft) hright) hflip) hlandscape
    exact .seq (.map hsettings) hsections
  | topSection =>
    simp only [Model.fields, List.forall_mem_cons] at hfields
    obtain ⟨hflows, hsubsections, _⟩ := hfields
    exact .seq (.map hflows) hsubsections
  | subsection =>
    simp only [Model.fields, List.forall_mem_cons] at hfields
    intro sub hsub
    obtain ⟨_, hnone, hflows⟩ := Subsection.check_eq_valid.mp hsub
    rw [filterMap_unknownKey?] at hnone
    refine Subsection.check_eq_valid.mpr ⟨?_, ?_, (Within.map hfields.1) sub hflows⟩
    · rw [← Bool.not_eq_true, any_isBrokenKey]
      exact Model.not_breaksOff (hkeys hnone)
    · rw [filterMap_unknownKey?]
      exact hkeys hnone
  | flow =>
    simp only [Model.fields, List.forall_mem_cons] at hfields
    obtain ⟨hid, hhtml, hseconds, hcentered, hfocus, hhighlight, _⟩ := hfields
    exact .seq (.seq (.seq (.seq (.seq (.map hid) hhtml) hseconds) hcentered) hfocus) hhighlight

end Schema

end SvgDeck
