/-
Nothing is lost in print.

A value is read back from its print, so different values have different texts.  Payloads keep what
they are made of: an animation has a member for each text that is set and no other, and a document
is determined by its payload.  No object of theirs repeats a key, as long as no id is there twice,
so it does not matter which of two members under one key a reader would keep.

* `serialization_lossless` — mappings and narrations are JSON, and read as what they are made of.
-/
import SvgDeck.Proofs.JsonGrammar
import SvgDeck.Proofs.Payload

namespace SvgDeck

open Json (IsJson IsStandard dialectWords)

/-! ### Reading values back -/

namespace Json

/-- Different values have different texts. -/
theorem print_injective : Function.Injective print := fun v w h => by
  have hread := read?_print v
  rw [h, read?_print] at hread
  exact (Option.some.inj hread).symm

/-- No object in the value repeats a key. -/
inductive IsUnambiguous : Json → Prop
  | atom {v : Json} (h : v.isAtom = true) : IsUnambiguous v
  | array {items : List Json} (h : ∀ item ∈ items, IsUnambiguous item) :
      IsUnambiguous (.array items)
  | object {members : List (Text × Json)} (keys : (members.map Prod.fst).Nodup)
      (h : ∀ m ∈ members, IsUnambiguous m.2) : IsUnambiguous (.object members)

@[simp] theorem isUnambiguous_text (t : Text) : IsUnambiguous (.text t) := .atom rfl

@[simp] theorem isUnambiguous_bool (b : Bool) : IsUnambiguous (.bool b) := .atom rfl

@[simp] theorem isUnambiguous_float (x : Binary64) : IsUnambiguous (.float x) := .atom rfl

theorem array_map_injective {α : Type} {toJson : α → Json} (h : Function.Injective toJson) :
    Function.Injective fun as : List α => Json.array (as.map toJson) :=
  fun _ _ heq => List.map_injective_iff.mpr h (Json.array.inj heq)

theorem isUnambiguous_array_map {α : Type} {toJson : α → Json} {as : List α}
    (h : ∀ a, (toJson a).IsUnambiguous) : IsUnambiguous (.array (as.map toJson)) :=
  .array (List.forall_mem_map.mpr fun a _ => h a)

theorem text_injective : Function.Injective Json.text := fun _ _ => Json.text.inj

theorem bool_injective : Function.Injective Json.bool := fun _ _ => Json.bool.inj

end Json

/-! ### Members by name -/

/-- Each part holds at most one member, under the name that belongs to it. -/
abbrev HaveNames (parts : List (List (Text × Json))) (names : List Text) : Prop :=
  List.Forall₂ (fun part name => (part.map Prod.fst).Sublist [name]) parts names

section Names

variable {α : Type} {key : Text} {toJson : α → Json} {o o' : Option α} {j j' : Json}
  {parts parts' : List (List (Text × Json))} {names : List Text}

theorem keys_member : ((member key j).map Prod.fst).Sublist [key] := List.Sublist.refl _

theorem keys_optionalMember : ((optionalMember key toJson o).map Prod.fst).Sublist [key] := by
  cases o with
  | none => exact List.nil_sublist _
  | some a => exact List.Sublist.refl _

theorem member_inj : member key j = member key j' ↔ j = j' := by simp [member]

theorem optionalMember_inj (h : Function.Injective toJson) :
    optionalMember key toJson o = optionalMember key toJson o' ↔ o = o' := by
  cases o with
  | none => cases o' <;> simp [optionalMember]
  | some a => cases o' <;> simp [optionalMember, h.eq_iff]

/-- The keys come in the order of the names. -/
theorem HaveNames.sublist (h : HaveNames parts names) :
    (parts.flatten.map Prod.fst).Sublist names := by
  induction h with
  | nil => exact List.Sublist.refl _
  | cons hpart _ ih =>
    rw [List.flatten_cons, List.map_append]
    exact hpart.append ih

/-- The first part is told from the others by its name. -/
theorem filter_flatten {part : List (Text × Json)} {name : Text}
    (hpart : (part.map Prod.fst).Sublist [name]) (h : HaveNames parts names)
    (hname : name ∉ names) : (part ++ parts.flatten).filter (·.1 = name) = part := by
  have hfirst : ∀ m ∈ part, m.1 = name := fun m hm =>
    List.mem_singleton.mp (hpart.subset (List.mem_map_of_mem hm))
  have hrest : ∀ m ∈ parts.flatten, m.1 ≠ name := fun m hm hkey =>
    hname (hkey ▸ h.sublist.subset (List.mem_map_of_mem hm))
  rw [List.filter_append, List.filter_eq_self.mpr (by simpa using hfirst),
    List.filter_eq_nil_iff.mpr (by simpa using hrest), List.append_nil]

/-- Members under different names determine the parts that they come from. -/
theorem HaveNames.eq (hnames : names.Nodup) (h : HaveNames parts names)
    (h' : HaveNames parts' names) (heq : parts.flatten = parts'.flatten) : parts = parts' := by
  induction h generalizing parts' with
  | nil =>
    cases h'
    rfl
  | @cons part name parts names hpart hparts ih =>
    obtain _ | ⟨hpart', hparts'⟩ := h'
    rename_i part' parts'
    obtain ⟨hname, hnames⟩ := List.nodup_cons.mp hnames
    rw [List.flatten_cons, List.flatten_cons] at heq
    -- The members under the first name are the first part on either side.
    obtain rfl : part = part' := by
      rw [← filter_flatten hpart hparts hname, heq, filter_flatten hpart' hparts' hname]
    rw [ih hnames hparts' (List.append_cancel_left heq)]

end Names

/-! ### Mappings -/

/-- The value is an object that has the texts of an animation, each if it is set, and no other
member. -/
def Json.HasTexts (v : Json) (a : Animation) : Prop :=
  ∃ members, v = .object members ∧ (members.map Prod.fst).Nodup ∧
    ∀ key, members.lookup key =
      if key = Text.ofString "focus" then a.focus.map .text
      else if key = Text.ofString "highlight" then a.highlight.map .text
      else none

section Mappings

variable {a a' : Animation} {as bs : Animations} {v : Json}

theorem keys_animation (a : Animation) :
    ((optionalMember "focus" Json.text a.focus ++
      optionalMember "highlight" Json.text a.highlight).map Prod.fst).Nodup := by
  rw [List.map_append]
  exact (keys_optionalMember.append keys_optionalMember).nodup (by decide)

theorem hasTexts_payload (a : Animation) : a.payload.HasTexts a := by
  refine ⟨_, rfl, keys_animation a, fun key => ?_⟩
  rw [List.lookup_append, lookup_optionalMember, lookup_optionalMember]
  split
  · next h => simp [h]
  · rfl

/-- A value has the texts of one animation only. -/
theorem Json.HasTexts.eq (h : v.HasTexts a) (h' : v.HasTexts a') : a = a' := by
  obtain ⟨members, rfl, _, hlookup⟩ := h
  obtain ⟨_, hmembers, _, hother⟩ := h'
  obtain rfl := Json.object.inj hmembers
  have htexts := Option.map_injective Json.text_injective
  have hfocus := (hlookup "focus").symm.trans (hother "focus")
  have hhighlight := (hlookup "highlight").symm.trans (hother "highlight")
  rw [if_pos rfl, if_pos rfl] at hfocus
  rw [if_neg (by decide), if_pos rfl, if_neg (by decide), if_pos rfl] at hhighlight
  cases a
  cases a'
  rw [Animation.mk.injEq]
  exact ⟨htexts hfocus, htexts hhighlight⟩

theorem Animation.payload_injective : Function.Injective Animation.payload := fun a a' h =>
  (hasTexts_payload a).eq (h ▸ hasTexts_payload a')

theorem Animations.payload_injective : Function.Injective Animations.payload := by
  have hentry : Function.Injective fun entry : Text × Animation => (entry.1, entry.2.payload) :=
    fun _ _ h => Prod.ext (Prod.mk.inj h).1 (Animation.payload_injective (Prod.mk.inj h).2)
  exact fun as bs h => List.map_injective_iff.mpr hentry (Json.object.inj h)

theorem isUnambiguous_animation (a : Animation) : a.payload.IsUnambiguous := by
  refine .object (keys_animation a) ?_
  simp only [List.forall_mem_append, forall_mem_optionalMember]
  simp

/-- Only an id that is there twice makes a mapping ambiguous. -/
theorem isUnambiguous_mapping : as.payload.IsUnambiguous ↔ (as.map Prod.fst).Nodup := by
  have hkeys : (as.map fun entry => (entry.1, entry.2.payload)).map Prod.fst = as.map Prod.fst := by
    rw [List.map_map]
    rfl
  constructor
  · intro h
    cases h with
    | atom h => cases h
    | object keys _ => rwa [hkeys] at keys
  · intro h
    exact .object (hkeys.symm ▸ h)
      (List.forall_mem_map.mpr fun entry _ => isUnambiguous_animation entry.2)

/-- A mapping holds no numbers and no names. -/
theorem isStandard_mapping (as : Animations) : IsStandard as.mapping := by
  refine Json.isJson_print fun a ha => ?_
  have hatoms : ∀ a ∈ as.payload.atoms, a.isValued = true := by
    simp only [Animations.payload, Animation.payload, Json.forall_mem_atoms_object,
      List.forall_mem_map, List.forall_mem_append, forall_mem_optionalMember]
    exact fun entry _ => ⟨by simp [Json.atoms, Json.isValued], by simp [Json.atoms, Json.isValued]⟩
  exact (Json.isPhrase_print_of_isValued (hatoms a ha)).mono (by decide)

end Mappings

/-! ### Narrations -/

theorem haveNames_flow (f : Flow) :
    HaveNames
      [member "id" (.text f.id), member "html" (.text f.html), member "seconds" (.float f.seconds),
        optionalMember "centered" .bool f.centered, optionalMember "focus" .text f.focus,
        optionalMember "highlight" .text f.highlight]
      ["id", "html", "seconds", "centered", "focus", "highlight"] :=
  .cons keys_member <| .cons keys_member <| .cons keys_member <| .cons keys_optionalMember <|
    .cons keys_optionalMember <| .cons keys_optionalMember .nil

theorem isUnambiguous_flow (f : Flow) : f.payload.IsUnambiguous := by
  refine .object ((haveNames_flow f).sublist.nodup (by decide)) ?_
  simp only [List.flatten_cons, List.flatten_nil, List.forall_mem_append,
    forall_mem_optionalMember, member, List.forall_mem_cons]
  simp

theorem Flow.payload_injective : Function.Injective Flow.payload := by
  intro f g h
  have hparts := (haveNames_flow f).eq (by decide) (haveNames_flow g) (Json.object.inj h)
  simp only [List.cons.injEq, member_inj, optionalMember_inj Json.text_injective,
    optionalMember_inj Json.bool_injective, Json.text.injEq, Json.float.injEq, and_true] at hparts
  obtain ⟨hid, hhtml, hseconds, hcentered, hfocus, hhighlight⟩ := hparts
  rw [Flow.mk.injEq]
  exact ⟨hid, hhtml, hseconds, hcentered, hfocus, hhighlight⟩

theorem isUnambiguous_flowsMember (flows : List Flow) :
    ∀ m ∈ flowsMember flows, m.2.IsUnambiguous :=
  List.forall_mem_singleton.mpr (Json.isUnambiguous_array_map isUnambiguous_flow)

theorem flowsMember_injective : Function.Injective flowsMember := fun _ _ h =>
  Json.array_map_injective Flow.payload_injective (member_inj.mp h)

theorem isUnambiguous_subsection (sub : Subsection) : sub.payload.IsUnambiguous :=
  .object (List.nodup_singleton _) (isUnambiguous_flowsMember sub.flows)

theorem Subsection.payload_injective : Function.Injective Subsection.payload := by
  intro sub sub' h
  rw [Subsection.mk.injEq]
  exact flowsMember_injective (Json.object.inj h)

theorem haveNames_section (sec : Section) :
    HaveNames
      [flowsMember sec.flows,
        optionalMember "subsections" (fun subs => .array (subs.map Subsection.payload))
          sec.subsections]
      ["flows", "subsections"] :=
  .cons keys_member <| .cons keys_optionalMember .nil

theorem isUnambiguous_section (sec : Section) : sec.payload.IsUnambiguous := by
  refine .object ((haveNames_section sec).sublist.nodup (by decide)) ?_
  simp only [List.flatten_cons, List.flatten_nil, List.forall_mem_append,
    forall_mem_optionalMember]
  exact ⟨isUnambiguous_flowsMember _,
    fun _ _ => Json.isUnambiguous_array_map isUnambiguous_subsection, List.forall_mem_nil _⟩

theorem Section.payload_injective : Function.Injective Section.payload := by
  intro sec sec' h
  have hparts := (haveNames_section sec).eq (by decide) (haveNames_section sec') (Json.object.inj h)
  have hsubsections := Json.array_map_injective Subsection.payload_injective
  rw [List.cons.injEq, List.cons.injEq, flowsMember_injective.eq_iff,
    optionalMember_inj hsubsections] at hparts
  rw [Section.mk.injEq]
  exact ⟨hparts.1, hparts.2.1⟩

theorem haveNames_settings (s : Settings) :
    HaveNames
      [member "min" (.text s.minSize), member "max" (.text s.maxSize),
        optionalMember "svgPaneBackgroundColor" .text s.svgPaneBackground,
        optionalMember "textPaneBackgroundColor" .text s.textPaneBackground,
        optionalMember "topBorder" .text s.topBorder,
        optionalMember "bottomBorder" .text s.bottomBorder,
        optionalMember "leftBorder" .text s.leftBorder,
        optionalMember "rightBorder" .text s.rightBorder,
        optionalMember "flipPanes" .bool s.flipPanes,
        optionalMember "landscapeOnly" .bool s.landscapeOnly]
      ["min", "max", "svgPaneBackgroundColor", "textPaneBackgroundColor", "topBorder",
        "bottomBorder", "leftBorder", "rightBorder", "flipPanes", "landscapeOnly"] :=
  .cons keys_member <| .cons keys_member <| .cons keys_optionalMember <|
    .cons keys_optionalMember <| .cons keys_optionalMember <| .cons keys_optionalMember <|
      .cons keys_optionalMember <| .cons keys_optionalMember <| .cons keys_optionalMember <|
        .cons keys_optionalMember .nil

theorem Settings.members_injective : Function.Injective Settings.members := by
  intro s s' h
  have hparts := (haveNames_settings s).eq (by decide) (haveNames_settings s') h
  simp only [List.cons.injEq, member_inj, optionalMember_inj Json.text_injective,
    optionalMember_inj Json.bool_injective, Json.text.injEq, and_true] at hparts
  rw [Settings.mk.injEq]
  exact hparts

theorem isUnambiguous_payload (d : Document) : d.payload.IsUnambiguous := by
  refine .object ?_ ?_
  · rw [List.map_append]
    exact ((haveNames_settings d.settings).sublist.append keys_member).nodup (by decide)
  · simp only [Settings.members, List.flatten_cons, List.flatten_nil, List.forall_mem_append,
      forall_mem_optionalMember, member, List.forall_mem_cons]
    simpa using Json.isUnambiguous_array_map isUnambiguous_section

/-- **A document is determined by its payload.** -/
theorem Document.payload_injective : Function.Injective Document.payload := by
  intro d d' h
  obtain ⟨hsettings, hsections⟩ := List.append_inj' (Json.object.inj h) rfl
  rw [Document.mk.injEq]
  exact ⟨Settings.members_injective hsettings,
    Json.array_map_injective Section.payload_injective (member_inj.mp hsections)⟩

/-! ### Both -/

/-- **Nothing is lost in print.**  A mapping is JSON of the standard and reads as its ids in their
order, each with the texts that are set; a narration is JSON of the dialect and reads as the payload
of its document.  Different mappings, and different documents, have different texts. -/
theorem serialization_lossless :
    (∀ as : Animations, IsStandard as.mapping ∧
      (∃ members, Json.read? as.mapping = some (.object members) ∧
        List.Forall₂ (fun m entry => m.1 = entry.1 ∧ m.2.HasTexts entry.2) members as) ∧
      (as.payload.IsUnambiguous ↔ (as.map Prod.fst).Nodup)) ∧
    (∀ as bs : Animations, as.mapping = bs.mapping ↔ as = bs) ∧
    (∀ d : Document, IsJson dialectWords d.narration ∧ Json.read? d.narration = some d.payload ∧
      d.payload.IsUnambiguous) ∧
    ∀ d d' : Document, d.narration = d'.narration ↔ d = d' := by
  refine ⟨fun as => ⟨isStandard_mapping as, ⟨_, Json.read?_print _, ?_⟩, isUnambiguous_mapping⟩,
    fun as bs => ?_, fun d => ⟨Json.isJson_dialectWords _, Json.read?_print _,
    isUnambiguous_payload d⟩, fun d d' => ?_⟩
  · rw [List.forall₂_map_left_iff]
    exact List.forall₂_same.mpr fun entry _ => ⟨rfl, hasTexts_payload entry.2⟩
  · exact (Json.print_injective.comp Animations.payload_injective).eq_iff
  · exact (Json.print_injective.comp Document.payload_injective).eq_iff

end SvgDeck
