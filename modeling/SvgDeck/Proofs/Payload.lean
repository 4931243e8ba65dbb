/-
Payloads are documents.

The payload of a valid document is accepted by the schema, and what it is read as is the document
itself (`check_payload_iff`).  So it does not matter which names the settings were given under, or
how an unset one was left open: the payload has every setting under its own name, and none that is
unset.  Passes keep documents valid, and so does the compiler.

* `check_payload_of_check` — the payloads of a document that the schema accepted, and of all that
  passes and the compiler make of it.
-/
import SvgDeck.Proofs.Page
import SvgDeck.Proofs.Passes

namespace SvgDeck

/-! ### Members -/

@[simp] theorem Text.ofString_inj {s t : String} : Text.ofString s = Text.ofString t ↔ s = t := by
  have hmap : Function.Injective (List.map CodePoint.ofChar) :=
    List.map_injective_iff.mpr fun _ _ => CodePoint.ofChar_injective
  rw [Text.ofString, Text.ofString, hmap.eq_iff, String.toList_inj]

section Members

variable {α : Type} {key name : Text} {toJson : α → Json} {o : Option α} {j : Json}
  {members : List (Text × Json)}

@[simp] theorem lookup_member : (member name j).lookup key = if key = name then some j else none := by
  by_cases h : key = name
  · simp [member, h]
  · simp [member, h, List.lookup_cons, beq_eq_false_iff_ne.mpr h]

@[simp] theorem lookup_optionalMember :
    (optionalMember name toJson o).lookup key = if key = name then o.map toJson else none := by
  cases o with
  | none => simp [optionalMember]
  | some a => exact lookup_member

/-- JSON has for a text what its members have. -/
theorem lookup?_ofMembers :
    Value.lookup? key (Value.ofMembers members) = (members.lookup key).map .ofJson := by
  induction members with
  | nil => rfl
  | cons m members ih =>
    obtain ⟨k, j⟩ := m
    rw [Value.ofMembers, Value.lookup?, List.find?_cons, List.lookup_cons, Value.isText]
    by_cases h : key = k
    · simp [h]
    · rw [beq_eq_false_iff_ne.mpr h, beq_eq_false_iff_ne.mpr (Ne.symm h)]
      exact ih

theorem ofJson_ne_null (h : j ≠ .null) : Value.ofJson j ≠ .null := by
  cases j <;> simp [Value.ofJson] at h ⊢

theorem ofItems_eq_map (items : List Json) : Value.ofItems items = items.map .ofJson := by
  induction items with
  | nil => rfl
  | cons item items ih => rw [Value.ofItems, ih, List.map_cons]

end Members

/-! ### Checking members -/

namespace Checked

variable {α : Type} {name : Text} {others : List Text} {check : Value → Checked α}
  {toJson : α → Json} {members : List (Text × Json)} {a : α} {o : Option α} {j : Json}

theorem required_ofMembers (hj : members.lookup name = some j)
    (ha : check (.ofJson j) = .valid a) :
    required name others check (Value.ofMembers members) = .valid a := by
  have hfind : find? (name :: others) (Value.ofMembers members) = some (name, .ofJson j) := by
    rw [find?, List.findSome?_cons, lookup?_ofMembers, hj]
    rfl
  rw [required_of_find? hfind]
  exact under_eq_valid.mpr ha

/-- What is unset is left out, under all its names. -/
theorem optional_ofMembers (toJson : α → Json) (hname : members.lookup name = o.map toJson)
    (hothers : ∀ other ∈ others, members.lookup other = none)
    (hjson : ∀ a, toJson a ≠ .null) (ha : ∀ a ∈ o, check (.ofJson (toJson a)) = .valid a) :
    optional name others check (Value.ofMembers members) = .valid o := by
  cases o with
  | none =>
    have hfind : find? (name :: others) (Value.ofMembers members) = none := by
      rw [find?, List.findSome?_eq_none_iff, List.forall_mem_cons]
      refine ⟨by rw [lookup?_ofMembers, hname]; rfl, fun other h => ?_⟩
      rw [lookup?_ofMembers, hothers other h]
      rfl
    exact optional_of_none hfind
  | some a =>
    have hfind : find? (name :: others) (Value.ofMembers members) =
        some (name, .ofJson (toJson a)) := by
      rw [find?, List.findSome?_cons, lookup?_ofMembers, hname]
      rfl
    rw [optional_of_find? hfind (ofJson_ne_null (hjson a))]
    exact map_eq_valid.mpr ⟨a, under_eq_valid.mpr (ha a rfl), rfl⟩

theorem list_array {as : List α} (h : ∀ a ∈ as, check (.ofJson (toJson a)) = .valid a) :
    list check (.ofJson (.array (as.map toJson))) = .valid as := by
  rw [Value.ofJson, ofItems_eq_map, List.map_map, list, items_eq_valid, List.forall₂_map_left_iff]
  exact List.forall₂_same.mpr h

theorem matching_text {p : Pattern} {t : Text} (ht : t.IsUnicode) (hp : p.accepts t = true) :
    matching p (.ofJson (.text t)) = .valid t := by
  have hany := Text.any_isSurrogate_eq_false.mpr ht
  simp [matching, Value.ofJson, text, unicode, bind, hany, hp]

theorem optional_matching_ofMembers {p : Pattern} {o : Option Text}
    (hname : members.lookup name = o.map .text)
    (hothers : ∀ other ∈ others, members.lookup other = none)
    (ht : ∀ t ∈ o, t.IsUnicode ∧ p.accepts t = true) :
    optional name others (matching p) (Value.ofMembers members) = .valid o :=
  optional_ofMembers .text hname hothers (by simp) fun t h => matching_text (ht t h).1 (ht t h).2

theorem map_valid {β : Type} {f : α → β} {c : Checked α} (h : c = .valid a) :
    f <$> c = .valid (f a) := map_eq_valid.mpr ⟨a, h, rfl⟩

theorem seq_valid {β : Type} {f : α → β} {cf : Checked (α → β)} {c : Checked α}
    (hf : cf = .valid f) (h : c = .valid a) : cf <*> c = .valid (f a) :=
  seq_eq_valid.mpr ⟨f, a, hf, h, rfl⟩

end Checked

open Checked

/-! ### Payloads of valid documents -/

theorem Flow.check_payload {f : Flow} (h : isFlowId f.id = true) :
    Flow.check (.ofJson f.payload) = .valid f := by
  rw [Flow.payload, Value.ofJson, Flow.check, mapping]
  show _ = Checked.valid (Flow.mk f.id f.html f.seconds f.centered f.focus f.highlight)
  refine seq_valid (seq_valid (seq_valid (seq_valid (seq_valid (map_valid ?id) ?html)
    ?seconds) ?centered) ?focus) ?highlight
  case id =>
    exact required_ofMembers (by simp [List.lookup_append])
      (matching_text (isUnicode_of_isFlowId h) h)
  case html => exact required_ofMembers (j := .text f.html) (by simp [List.lookup_append]) rfl
  case seconds =>
    exact required_ofMembers (j := .float f.seconds) (by simp [List.lookup_append]) rfl
  case centered =>
    exact optional_ofMembers .bool (by simp [List.lookup_append]) (by simp) (by simp) fun _ _ => rfl
  case focus =>
    exact optional_ofMembers .text (by simp [List.lookup_append]) (by simp) (by simp) fun _ _ => rfl
  case highlight =>
    exact optional_ofMembers .text (by simp [List.lookup_append]) (by simp) (by simp) fun _ _ => rfl

theorem checkFlows_payload {flows : List Flow} (h : ∀ f ∈ flows, isFlowId f.id = true)
    {members : List (Text × Json)}
    (hm : members.lookup (Text.ofString "flows") = some (.array (flows.map Flow.payload))) :
    checkFlows (Value.ofMembers members) = .valid flows :=
  required_ofMembers hm (list_array fun f hf => Flow.check_payload (h f hf))

theorem Subsection.check_payload {sub : Subsection}
    (h : ∀ f ∈ sub.flows, isFlowId f.id = true) :
    Subsection.check (.ofJson sub.payload) = .valid sub := by
  rw [Subsection.payload, Value.ofJson]
  refine Subsection.check_eq_valid.mpr ⟨rfl, rfl, ?_⟩
  exact map_valid (checkFlows_payload h (by simp [flowsMember]))

theorem Section.check_payload {sec : Section} (h : ∀ f ∈ sec.flowList, isFlowId f.id = true) :
    Section.check (.ofJson sec.payload) = .valid sec := by
  rw [Section.payload, Value.ofJson, Section.check, mapping]
  show _ = Checked.valid (Section.mk sec.flows sec.subsections)
  refine seq_valid (map_valid ?flows) ?subsections
  case flows =>
    refine checkFlows_payload (fun f hf => h f (List.mem_append_left _ hf)) ?_
    simp [flowsMember, List.lookup_append]
  case subsections =>
    refine optional_ofMembers (fun subs => .array (subs.map Subsection.payload))
      (by simp [flowsMember, List.lookup_append]) (by simp) (by simp) ?_
    intro subs hsubs
    refine list_array fun sub hsub => Subsection.check_payload fun f hf => h f ?_
    refine List.mem_append_right _ ?_
    rw [Section.subsectionList, Option.mem_def.mp hsubs]
    exact List.mem_flatMap.mpr ⟨sub, hsub, hf⟩

theorem Settings.check_members {s : Settings} (h : s.IsValid) (sections : Json) :
    Settings.check (Value.ofMembers (s.members ++ member "sections" sections)) = .valid s := by
  have hcolors := h.colors
  have hborders := h.borders
  simp only [List.forall_mem_cons] at hcolors hborders
  obtain ⟨hsvg, htext, _⟩ := hcolors
  obtain ⟨htop, hbottom, hleft, hright, _⟩ := hborders
  have hcolor : ∀ t, isColor t = true → t.IsUnicode ∧ isColor t = true := fun t ht =>
    ⟨isUnicode_of_isColor ht, ht⟩
  have hborder : ∀ t, isBorder t = true → t.IsUnicode ∧ isBorder t = true := fun t ht =>
    ⟨isUnicode_of_isBorder ht, ht⟩
  show _ = Checked.valid (Settings.mk s.minSize s.maxSize s.svgPaneBackground s.textPaneBackground
    s.topBorder s.bottomBorder s.leftBorder s.rightBorder s.flipPanes s.landscapeOnly)
  refine seq_valid (seq_valid (seq_valid (seq_valid (seq_valid (seq_valid (seq_valid (seq_valid
    (seq_valid (map_valid ?min) ?max) ?svg) ?text) ?top) ?bottom) ?left) ?right) ?flip) ?landscape
  case min =>
    exact required_ofMembers (by simp [Settings.members, List.lookup_append])
      (matching_text (isUnicode_of_isFontSize h.minSize) h.minSize)
  case max =>
    exact required_ofMembers (by simp [Settings.members, List.lookup_append])
      (matching_text (isUnicode_of_isFontSize h.maxSize) h.maxSize)
  case svg =>
    exact optional_matching_ofMembers (by simp [Settings.members, List.lookup_append])
      (by simp [Settings.members, List.lookup_append]) fun t ht => hcolor t (hsvg t ht)
  case text =>
    exact optional_matching_ofMembers (by simp [Settings.members, List.lookup_append])
      (by simp [Settings.members, List.lookup_append]) fun t ht => hcolor t (htext t ht)
  case top =>
    exact optional_matching_ofMembers (by simp [Settings.members, List.lookup_append])
      (by simp [Settings.members, List.lookup_append]) fun t ht => hborder t (htop t ht)
  case bottom =>
    exact optional_matching_ofMembers (by simp [Settings.members, List.lookup_append])
      (by simp [Settings.members, List.lookup_append]) fun t ht => hborder t (hbottom t ht)
  case left =>
    exact optional_matching_ofMembers (by simp [Settings.members, List.lookup_append])
      (by simp [Settings.members, List.lookup_append]) fun t ht => hborder t (hleft t ht)
  case right =>
    exact optional_matching_ofMembers (by simp [Settings.members, List.lookup_append])
      (by simp [Settings.members, List.lookup_append]) fun t ht => hborder t (hright t ht)
  case flip =>
    exact optional_ofMembers .bool (by simp [Settings.members, List.lookup_append])
      (by simp [Settings.members, List.lookup_append]) (by simp) fun _ _ => rfl
  case landscape =>
    exact optional_ofMembers .bool (by simp [Settings.members, List.lookup_append])
      (by simp [Settings.members, List.lookup_append]) (by simp) fun _ _ => rfl

theorem check_payload {d : Document} (h : d.IsValid) :
    Document.check (.ofJson d.payload) = .valid d := by
  rw [Document.payload, Value.ofJson, Document.check, mapping]
  show _ = Checked.valid (Document.mk d.settings d.sections)
  refine seq_valid (map_valid ?settings) ?sections
  case settings => exact Settings.check_members h.settings _
  case sections =>
    refine required_ofMembers ?_ (list_array fun sec hsec => Section.check_payload fun f hf =>
      h.id f (List.mem_flatMap.mpr ⟨sec, hsec, hf⟩))
    simp [Settings.members, List.lookup_append]

/-- **A payload is read as its document** exactly if the document is valid. -/
theorem check_payload_iff {d : Document} :
    Document.check (.ofJson d.payload) = .valid d ↔ d.IsValid :=
  ⟨isValid_of_check, check_payload⟩

/-! ### What is made of a document -/

theorem Kept.isValid {start : Document} {s : Draft} (h : Kept start s) (hstart : start.IsValid) :
    s.document.IsValid :=
  ⟨h.settings ▸ hstart.settings, h.ids⟩

/-- The compiler is a run of passes as well. -/
theorem isValid_of_compileDocument {w : Workspace} {d : Document} {folder : FolderName} {b : Bundle}
    (hd : d.IsValid) (h : (compileDocument w d folder).outcome = .ok b) : b.document.IsValid := by
  obtain ⟨_, _, _, _, rfl⟩ := exists_of_compileDocument h
  have hkept : Kept d ⟨d, mapFlows Flow.narrated d.qualified⟩ :=
    ⟨rfl, rfl, hd.id, (fits_qualified hd.id).mapFlows fun f => id_centre f⟩
  exact hkept.rebuild.isValid hd

/-- **Payloads of accepted documents are accepted as they are**, after any passes and when
compiled. -/
theorem check_payload_of_check {v : Value} {d : Document} (h : Document.check v = .valid d) :
    (∀ passes, ∃ s, runPasses passes ⟨d, []⟩ = some s ∧
      Document.check (.ofJson s.document.payload) = .valid s.document) ∧
    ∀ w folder b, (compileDocument w d folder).outcome = .ok b →
      Document.check (.ofJson b.document.payload) = .valid b.document := by
  have hd := isValid_of_check h
  constructor
  · intro passes
    obtain ⟨s, hrun, hkept⟩ := exists_runPasses passes (s := ⟨d, []⟩) ⟨rfl, rfl, hd.id, fits_nil d⟩
    exact ⟨s, hrun, check_payload (hkept.isValid hd)⟩
  · exact fun w folder b hb => check_payload (isValid_of_compileDocument hd hb)

/-- A document in the form from before there were sections, with a setting under its long name and
one that is null. -/
def oldData : Value :=
  .ofJson <| .object
    [("min_size", .text "1em"), ("max", .text "2em"), ("flipPanes", .null),
      ("illustration", .array [.object [("flows", .array [.object
        [("seconds", .int 1), ("id", .text "a"), ("html", .text "One."), ("centered", .text "yes"),
          ("focus", .null)]])]])]

def oldTalk : Document where
  settings := ⟨"1em", "2em", none, none, none, none, none, none, none, none⟩
  sections := [⟨[⟨"a", "One.", .one, some true, none, none⟩], none⟩]

theorem check_payload_of_check_oldData :
    Document.check oldData = .valid oldTalk ∧
      ∃ s, runPasses [.qualify, .centre, .strip, .rebuild] ⟨oldTalk, []⟩ = some s ∧
        Document.check (.ofJson s.document.payload) = .valid s.document := by
  have h : Document.check oldData = .valid oldTalk := by rfl
  exact ⟨h, (check_payload_of_check h).1 _⟩

end SvgDeck
