/-
Narrations as JSON.

The atoms of a document's payload are its texts, its truth values and the seconds of its flows.  So
a narration is JSON of the standard exactly if all seconds are finite; the schema accepts others
too.  The compiler keeps all seconds:

* `isStandard_narration_iff` — when the narration of a document, and that of its page, is JSON.
-/
import SvgDeck.Proofs.Bundle
import SvgDeck.Proofs.JsonNames
import SvgDeck.Proofs.Page

namespace SvgDeck

open Json (IsJson IsStandard valueWords forall_mem_atoms_array forall_mem_atoms_object)

/-- No flow takes an infinite time, or a time that is not a number. -/
def Document.IsFinite (d : Document) : Prop := ∀ f ∈ d.flows, f.seconds.isFinite = true

/-! ### Atoms of payloads -/

section Atoms

variable {P : Json → Prop}

/-- Of a flow only the seconds are neither text nor truth value. -/
theorem forall_mem_atoms_flow (htext : ∀ t, P (.text t)) (hbool : ∀ b, P (.bool b)) (f : Flow) :
    (∀ a ∈ f.payload.atoms, P a) ↔ P (.float f.seconds) := by
  simp only [Flow.payload, forall_mem_atoms_object, List.flatten_cons, List.flatten_nil,
    List.forall_mem_append, forall_mem_optionalMember, member, List.forall_mem_cons]
  simp [Json.atoms, htext, hbool]

theorem forall_mem_atoms_flowsMember (htext : ∀ t, P (.text t)) (hbool : ∀ b, P (.bool b))
    (flows : List Flow) :
    (∀ m ∈ flowsMember flows, ∀ a ∈ m.2.atoms, P a) ↔ ∀ f ∈ flows, P (.float f.seconds) := by
  rw [flowsMember, member, List.forall_mem_singleton, forall_mem_atoms_array, List.forall_mem_map]
  exact forall₂_congr fun f _ => forall_mem_atoms_flow htext hbool f

theorem forall_mem_atoms_section (htext : ∀ t, P (.text t)) (hbool : ∀ b, P (.bool b))
    (sec : Section) :
    (∀ a ∈ sec.payload.atoms, P a) ↔ ∀ f ∈ sec.flowList, P (.float f.seconds) := by
  have hsubsection : ∀ sub : Subsection,
      (∀ a ∈ sub.payload.atoms, P a) ↔ ∀ f ∈ sub.flows, P (.float f.seconds) := fun sub => by
    rw [Subsection.payload, forall_mem_atoms_object, forall_mem_atoms_flowsMember htext hbool]
  rw [Section.payload, forall_mem_atoms_object, List.flatten_cons, List.flatten_cons,
    List.flatten_nil, List.append_nil, List.forall_mem_append,
    forall_mem_atoms_flowsMember htext hbool, forall_mem_optionalMember, Section.flowList,
    List.forall_mem_append]
  refine and_congr Iff.rfl ?_
  cases hs : sec.subsections with
  | none => simp [Section.subsectionList, hs]
  | some subs =>
    simp only [Section.subsectionList, hs, Option.mem_some_iff, forall_eq', Option.getD_some,
      forall_mem_atoms_array, List.forall_mem_map, hsubsection, List.forall_mem_flatMap]

/-- **Of a document only the seconds of its flows** are neither text nor truth value. -/
theorem forall_mem_atoms_payload (htext : ∀ t, P (.text t)) (hbool : ∀ b, P (.bool b))
    (d : Document) :
    (∀ a ∈ d.payload.atoms, P a) ↔ ∀ f ∈ d.flows, P (.float f.seconds) := by
  have hsettings : ∀ m ∈ d.settings.members, ∀ a ∈ m.2.atoms, P a := by
    simp only [Settings.members, List.flatten_cons, List.flatten_nil, List.forall_mem_append,
      forall_mem_optionalMember, member, List.forall_mem_cons]
    simp [Json.atoms, htext, hbool]
  rw [Document.payload, forall_mem_atoms_object, List.forall_mem_append, member,
    List.forall_mem_singleton, forall_mem_atoms_array, List.forall_mem_map, Document.flows,
    List.forall_mem_flatMap, and_iff_right hsettings]
  exact forall₂_congr fun sec _ => forall_mem_atoms_section htext hbool sec

end Atoms

/-! ### Narrations -/

theorem Document.isStandard_narration {d : Document} : IsStandard d.narration ↔ d.IsFinite := by
  rw [Document.narration, Json.isStandard_print_iff,
    forall_mem_atoms_payload (by simp [Json.isValued]) (by simp [Json.isValued])]
  simp [Json.isValued, Document.IsFinite]

/-- There is no null in a narration. -/
theorem Document.isJson_narration {d : Document} : IsJson valueWords d.narration ↔ d.IsFinite := by
  rw [Document.narration, Json.isJson_valueWords_iff,
    forall_mem_atoms_payload (by simp [Json.isValued]) (by simp [Json.isValued])]
  rfl

/-- The compiler keeps the seconds of all flows. -/
theorem isFinite_of_compileDocument {w : Workspace} {d : Document} {folder : FolderName}
    {b : Bundle} (h : (compileDocument w d folder).outcome = .ok b) :
    b.document.IsFinite ↔ d.IsFinite := by
  obtain ⟨_, _, _, _, rfl⟩ := exists_of_compileDocument h
  rw [Document.IsFinite, flows_bundle, List.forall_mem_map]
  -- The flows of the bundle are those of the document, each with its number and for the page.
  have hseconds : ∀ x ∈ d.numbered, (x.1.qualifiedAt x.2).narrated.seconds = x.1.seconds :=
    fun x _ => (shownAs_narrated x.1 x.2).seconds
  have hflows : d.flows = d.numbered.map Prod.fst := (List.zipIdx_map_fst 1 d.flows).symm
  rw [Document.IsFinite, hflows, List.forall_mem_map]
  exact forall₂_congr fun x hx => by rw [hseconds x hx]

/-- **Narrations are JSON of the standard**, with no values but texts, numbers, truth values, arrays
and objects, exactly if all seconds are finite.  The seconds of the document count for its page. -/
theorem isStandard_narration_iff (d : Document) :
    (IsStandard d.narration ↔ d.IsFinite) ∧
    (IsJson valueWords d.narration ↔ d.IsFinite) ∧
    ∀ w folder b, (compileDocument w d folder).outcome = .ok b →
      (IsStandard b.narration ↔ d.IsFinite) ∧ (IsJson valueWords b.narration ↔ d.IsFinite) := by
  refine ⟨Document.isStandard_narration, Document.isJson_narration, fun w folder b h => ?_⟩
  have hnarration : b.narration = b.document.narration := by
    obtain ⟨_, _, _, _, rfl⟩ := exists_of_compileDocument h
    rfl
  rw [hnarration, ← isFinite_of_compileDocument h]
  exact ⟨Document.isStandard_narration, Document.isJson_narration⟩

theorem isStandard_narration_iff_talk :
    talk.IsFinite ∧ ∃ b, (compileDocument talkFolder talk (.ofText "talk")).outcome = .ok b ∧
      IsStandard b.narration ∧ IsJson valueWords b.narration := by
  obtain ⟨b, hb⟩ := exists_of_isOk talk_compiles
  have hfinite : talk.IsFinite := by
    unfold Document.IsFinite
    decide
  obtain ⟨hstandard, hvalues⟩ := (isStandard_narration_iff talk).2.2 _ _ b hb
  exact ⟨hfinite, b, hb, hstandard.mpr hfinite, hvalues.mpr hfinite⟩

/-- A document whose one flow has its seconds given as a text. -/
def timedData (seconds : Text) : Value :=
  .ofJson <| .object
    [("min", .text "1em"), ("max", .text "2.5em"),
      ("sections", .array [.object [("flows", .array [.object
        [("id", .text "a"), ("html", .text "One."), ("seconds", .text seconds)]])]])]

/-- The schema takes a text for a time that is not a number. -/
theorem timedData_not_isStandard :
    ∃ d, Document.check (timedData "nan") = .valid d ∧ ¬IsStandard d.narration := by
  refine ⟨_, rfl, ?_⟩
  rw [Document.isStandard_narration]
  unfold Document.IsFinite
  decide

end SvgDeck
