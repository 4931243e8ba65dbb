/-
Pages that can be written to a file.

A page is made of the title, the settings, the pictures, the narration and the animations.
Of all these only the title and the texts of the flows can hold a surrogate: pictures are
read from UTF-8 files, ids and settings have plain forms, and markup is made of numerals.
`isUnicode_render_iff` says so for every slideshow that compiles.
-/
import SvgDeck.Page.Skeleton
import SvgDeck.Proofs.Bundle
import SvgDeck.Proofs.Markup
import SvgDeck.Proofs.Path

namespace SvgDeck

open Text

/-! ### Numbers -/

theorem isUnicode_dropZeros {digits : Text} (h : IsUnicode digits) :
    IsUnicode (Binary64.dropZeros digits) :=
  isUnicode_reverse.mpr ((isUnicode_reverse.mpr h).of_subset (List.dropWhile_suffix _).subset)

theorem isUnicode_shortestDigits (m : Nat) (e : Int) :
    IsUnicode (Binary64.shortestDigits m e).1 := isUnicode_dropZeros (isUnicode_ofNat _)

@[simp] theorem isUnicode_exponentText (n : Int) : IsUnicode (Binary64.exponentText n) := by
  rw [Binary64.exponentText]
  split <;> simp

@[simp] theorem isUnicode_magnitudeText (m : Nat) (e : Int) :
    IsUnicode (Binary64.magnitudeText m e) := by
  have hdigits := isUnicode_shortestDigits m e
  have hpoint := fun place => isUnicode_withPoint hdigits place
  rw [Binary64.magnitudeText]
  simp only
  split
  · rw [Binary64.withFraction]
    split <;> simp [hpoint]
  · split <;> simp [hdigits, hpoint]

@[simp] theorem isUnicode_signText (negative : Bool) : IsUnicode (Binary64.signText negative) := by
  cases negative <;> simp [Binary64.signText]

@[simp] theorem isUnicode_printFloat (x : Binary64) : IsUnicode (Json.printFloat x) := by
  cases x with
  | nan => simp [Json.printFloat]
  | infinite s => simp [Json.printFloat]
  | finite s m e canonical =>
    show IsUnicode (Binary64.signText s ++ if m = 0 then Text.ofString "0.0" else _)
    split <;> simp

/-! ### JSON -/

namespace Json

theorem isUnicode_escape {c : CodePoint} : IsUnicode (escape c) ↔ c.isSurrogate = false := by
  have hlow : c.val < 0x20 → c.isSurrogate = false := fun h =>
    CodePoint.isSurrogate_of_lt (by omega)
  rw [escape]
  repeat' split
  all_goals simp_all

/-- Escapes neither add surrogates nor take any away. -/
@[simp] theorem isUnicode_printText {t : Text} : IsUnicode (printText t) ↔ IsUnicode t := by
  simp only [printText, isUnicode_append, isUnicode_ofString, isUnicode_flatMap, isUnicode_escape,
    true_and, and_true]
  rfl

theorem isUnicode_bracketed {left right : Char} {parts : List Text} :
    IsUnicode (bracketed left right parts) ↔ ∀ t ∈ parts, IsUnicode t := by
  simp [bracketed, isUnicode_join]

@[simp] theorem isUnicode_print_text {t : Text} : IsUnicode (print (.text t)) ↔ IsUnicode t := by
  rw [print, isUnicode_printText]

@[simp] theorem isUnicode_print_bool (b : Bool) : IsUnicode (print (.bool b)) := by
  cases b <;> simp [print]

@[simp] theorem isUnicode_print_float (x : Binary64) : IsUnicode (print (.float x)) := by
  simp [print]

@[simp] theorem isUnicode_print_array {items : List Json} :
    IsUnicode (print (.array items)) ↔ ∀ item ∈ items, IsUnicode (print item) := by
  rw [print, isUnicode_bracketed, printItems_eq_map, List.forall_mem_map]

@[simp] theorem isUnicode_print_object {members : List (Text × Json)} :
    IsUnicode (print (.object members)) ↔
      ∀ m ∈ members, IsUnicode m.1 ∧ IsUnicode (print m.2) := by
  rw [print, isUnicode_bracketed, printMembers_eq_map, List.forall_mem_map]
  simp

end Json

/-! ### Narration -/

theorem forall_mem_optionalMember {α : Type} {key : Text} {toJson : α → Json} {value : Option α}
    {p : Text × Json → Prop} :
    (∀ m ∈ optionalMember key toJson value, p m) ↔ ∀ a ∈ value, p (key, toJson a) := by
  cases value with
  | none => simp [optionalMember]
  | some a => simp [optionalMember]

theorem isUnicode_payload_flow {f : Flow} :
    IsUnicode f.payload.print ↔ IsUnicode f.id ∧ IsUnicode f.html ∧
      (∀ t ∈ f.focus, IsUnicode t) ∧ ∀ t ∈ f.highlight, IsUnicode t := by
  simp only [Flow.payload, Json.isUnicode_print_object, List.flatten_cons, List.flatten_nil,
    List.forall_mem_append, forall_mem_optionalMember, member, List.forall_mem_cons]
  simp

/-- The texts of a flow hold no surrogate. -/
def Flow.IsUnicode (f : Flow) : Prop := Text.IsUnicode f.payload.print

theorem forall_mem_flowsMember {flows : List Flow} :
    (∀ m ∈ flowsMember flows, IsUnicode m.1 ∧ IsUnicode m.2.print) ↔
      ∀ f ∈ flows, f.IsUnicode := by
  simp [flowsMember, member, Flow.IsUnicode]

theorem isUnicode_payload_subsection {sub : Subsection} :
    IsUnicode sub.payload.print ↔ ∀ f ∈ sub.flows, f.IsUnicode := by
  rw [Subsection.payload, Json.isUnicode_print_object, forall_mem_flowsMember]

theorem isUnicode_payload_section {sec : Section} :
    IsUnicode sec.payload.print ↔ ∀ f ∈ sec.flowList, f.IsUnicode := by
  rw [Section.payload, Json.isUnicode_print_object, List.flatten_cons, List.flatten_cons,
    List.flatten_nil, List.append_nil, List.forall_mem_append, forall_mem_flowsMember,
    forall_mem_optionalMember, Section.flowList, List.forall_mem_append]
  refine and_congr Iff.rfl ?_
  cases hs : sec.subsections with
  | none => simp [Section.subsectionList, hs]
  | some subs =>
    simp only [Section.subsectionList, hs, Option.mem_some_iff, forall_eq', Option.getD_some,
      Json.isUnicode_print_array, List.forall_mem_map, isUnicode_payload_subsection,
      List.forall_mem_flatMap]
    simp

/-- The texts of the settings hold no surrogate. -/
def Settings.IsUnicode (s : Settings) : Prop :=
  ∀ m ∈ s.members, Text.IsUnicode m.1 ∧ Text.IsUnicode m.2.print

theorem isUnicode_narration {d : Document} :
    IsUnicode d.narration ↔ d.settings.IsUnicode ∧ ∀ f ∈ d.flows, f.IsUnicode := by
  simp only [Document.narration, Document.payload, Json.isUnicode_print_object,
    List.forall_mem_append, Settings.IsUnicode, Document.flows, List.forall_mem_flatMap]
  simp [member, isUnicode_payload_section]

/-! ### Ids and settings -/

theorem CodePoint.isSurrogate_of_isBetween {c : CodePoint} {low high : Nat} (hh : high < 0xD800)
    (h : c.isBetween low high = true) : c.isSurrogate = false := by
  simp only [isBetween, Bool.and_eq_true, decide_eq_true_eq] at h
  exact isSurrogate_of_lt (by omega)

theorem isSurrogate_of_isFlowIdPart {c : CodePoint} (h : isFlowIdPart c = true) :
    c.isSurrogate = false := by
  simp only [isFlowIdPart, CodePoint.isAsciiAlphanumeric, Bool.or_eq_true, decide_eq_true_eq] at h
  rcases h with ((((h | h) | h) | rfl) | rfl) | rfl
  · exact CodePoint.isSurrogate_of_isBetween (by decide) h
  · exact CodePoint.isSurrogate_of_isBetween (by decide) h
  · exact CodePoint.isSurrogate_of_isBetween (by decide) h
  · exact CodePoint.isSurrogate_ofChar '-'
  · exact CodePoint.isSurrogate_ofChar '.'
  · exact CodePoint.isSurrogate_ofChar '_'

theorem isUnicode_of_isFlowId {t : Text} (h : isFlowId t = true) : IsUnicode t := by
  rw [isFlowId, Bool.and_eq_true] at h
  exact isUnicode_of_all (fun _ => isSurrogate_of_isFlowIdPart) h.2

/-- A text is what it begins with and the rest. -/
theorem isUnicode_of_parts {p : CodePoint → Bool} (hp : ∀ c, p c = true → c.isSurrogate = false)
    {t : Text} (h : IsUnicode (t.dropWhile p)) : IsUnicode t := by
  rw [← List.takeWhile_append_dropWhile (p := p) (l := t), isUnicode_append]
  exact ⟨isUnicode_of_all hp (List.all_takeWhile ..), h⟩

theorem isUnicode_of_isFontSize {t : Text} (h : isFontSize t = true) : IsUnicode t := by
  simp only [isFontSize, Bool.and_eq_true, List.contains_iff_mem] at h
  have hunits : ∀ u ∈ ([("em" : Text), ("px" : Text), ("vmax" : Text)] : List Text),
      IsUnicode u := by simp
  refine isUnicode_of_parts (fun c hc => ?_) (hunits _ h.2)
  simp only [Bool.or_eq_true, decide_eq_true_eq] at hc
  rcases hc with hc | rfl
  · exact CodePoint.isSurrogate_of_isBetween (by decide) hc
  · exact CodePoint.isSurrogate_ofChar '.'

theorem CodePoint.isSurrogate_of_hexDigit? {c : CodePoint} (h : c.hexDigit?.isSome = true) :
    c.isSurrogate = false := by
  rw [hexDigit?] at h
  split at h
  · next hc => exact isSurrogate_of_isBetween (by decide) hc
  · split at h
    · next hc => exact isSurrogate_of_isBetween (by decide) hc
    · split at h
      · next hc => exact isSurrogate_of_isBetween (by decide) hc
      · cases h

theorem isUnicode_of_isColor {t : Text} (h : isColor t = true) : IsUnicode t := by
  cases t with
  | nil => exact isUnicode_nil
  | cons c digits =>
    simp only [isColor, Bool.and_eq_true, decide_eq_true_eq] at h
    obtain ⟨⟨⟨rfl, _⟩, _⟩, hdigits⟩ := h
    refine isUnicode_cons.mpr ⟨CodePoint.isSurrogate_ofChar '#', ?_⟩
    exact isUnicode_of_all (fun _ => CodePoint.isSurrogate_of_hexDigit?) hdigits

theorem isUnicode_of_isBorder {t : Text} (h : isBorder t = true) : IsUnicode t := by
  rw [isBorder, Bool.and_eq_true] at h
  have hlower : ∀ c : CodePoint, c.isAsciiLower = true → c.isSurrogate = false := fun _ =>
    CodePoint.isSurrogate_of_isBetween (by decide)
  have hdigit : ∀ c : CodePoint, c.isAsciiDigit = true → c.isSurrogate = false := fun _ =>
    CodePoint.isSurrogate_of_isBetween (by decide)
  refine isUnicode_of_parts hlower ?_
  cases hw : t.dropWhile CodePoint.isAsciiLower with
  | nil => exact isUnicode_nil
  | cons c width =>
    simp only [hw, Bool.and_eq_true, decide_eq_true_eq] at h
    obtain ⟨_, ⟨rfl, _⟩, hpx⟩ := h
    refine isUnicode_cons.mpr ⟨CodePoint.isSurrogate_ofChar ' ', isUnicode_of_parts hdigit ?_⟩
    rw [hpx]
    exact isUnicode_ofString "px"

/-- The optional texts of the settings. -/
def Settings.optionalTexts (s : Settings) : List (Option Text) :=
  [s.svgPaneBackground, s.textPaneBackground, s.topBorder, s.bottomBorder, s.leftBorder,
    s.rightBorder]

theorem isUnicode_optionalTexts {s : Settings} (h : s.IsValid) :
    ∀ o ∈ s.optionalTexts, ∀ t, o = some t → IsUnicode t := by
  intro o ho t ht
  -- The first two are colors and the others borders.
  have hsplit : o ∈ [s.svgPaneBackground, s.textPaneBackground] ++
      [s.topBorder, s.bottomBorder, s.leftBorder, s.rightBorder] := ho
  rcases List.mem_append.mp hsplit with hc | hb
  · exact isUnicode_of_isColor (h.colors o hc t ht)
  · exact isUnicode_of_isBorder (h.borders o hb t ht)

theorem isUnicode_settings {s : Settings} (h : s.IsValid) : s.IsUnicode := by
  have hmin := isUnicode_of_isFontSize h.minSize
  have hmax := isUnicode_of_isFontSize h.maxSize
  have hrest := isUnicode_optionalTexts h
  simp only [Settings.optionalTexts, List.forall_mem_cons] at hrest
  simp only [Settings.IsUnicode, Settings.members, List.flatten_cons, List.flatten_nil,
    List.forall_mem_append, forall_mem_optionalMember, member, List.forall_mem_cons]
  simpa [hmin, hmax] using hrest

/-! ### Pages -/

theorem isUnicode_style {s : Settings} (h : s.IsValid) : IsUnicode s.style := by
  have hmin := isUnicode_of_isFontSize h.minSize
  have hmax := isUnicode_of_isFontSize h.maxSize
  have hrest := isUnicode_optionalTexts h
  have hor : ∀ o ∈ s.optionalTexts, ∀ plain : String,
      IsUnicode (settingOr (Text.ofString plain) o) :=
    fun o ho plain => settingOr_of (isUnicode_ofString plain) (hrest o ho)
  simp only [Settings.optionalTexts, List.forall_mem_cons] at hor
  simp [Settings.style, Settings.styleRule, Settings.properties, styleSheet, hmin, hmax, hor]

@[simp] theorem isUnicode_bodyClasses (s : Settings) : IsUnicode s.bodyClasses := by
  rw [Settings.bodyClasses, isUnicode_join (by simp)]
  split <;> split <;> simp

@[simp] theorem isUnicode_scriptSafe {t : Text} : IsUnicode (scriptSafe t) ↔ IsUnicode t := by
  induction t with
  | nil => rfl
  | cons c t ih =>
    rw [scriptSafe]
    split <;> simp [ih]

theorem isUnicode_render {b : Bundle} {title : Text} :
    IsUnicode (b.render title) ↔ IsUnicode title ∧ IsUnicode b.document.settings.style ∧
      IsUnicode b.fragments ∧ IsUnicode b.narration ∧ IsUnicode b.mapping := by
  have hplayer : IsUnicode player := isUnicode_ofLines _
  simp [Bundle.render, skeleton, Piece.render, Bundle.fill, hplayer,
    Directive.isUnicode_escapeMarkup]

theorem isUnicode_of_body? {t body : Text} (h : body? t = some body) (ht : IsUnicode t) :
    IsUnicode body := by
  obtain ⟨⟨before, rest⟩, hcut, h⟩ := Option.bind_eq_some_iff.mp h
  obtain ⟨⟨inside, behind⟩, hlast, h⟩ := Option.bind_eq_some_iff.mp h
  cases h
  have hrest := (isUnicode_of_cut? hcut ht).2
  have hinside := (isUnicode_of_cutLast? hlast hrest).1
  simp [bodyStart, bodyEnd, hinside]

theorem HasBody.isUnicode {w : Workspace} {folder : Path} {root body : Text}
    (h : HasBody w folder root body) : IsUnicode body := by
  cases h with
  | intro file decoded found =>
    exact isUnicode_of_body? found (Utf8.isUnicode_of_decodeLines decoded)

theorem isUnicode_fragments {w : Workspace} {folder : Path} {roots bodies : List Text}
    (hr : ∀ root ∈ roots, isFlowId root = true)
    (h : List.Forall₂ (HasBody w folder) roots bodies) :
    ∀ t ∈ List.zipWith wrapBody roots bodies, IsUnicode t := by
  induction h with
  | nil => simp
  | @cons root body roots bodies hbody _ ih =>
    rw [List.zipWith_cons_cons, List.forall_mem_cons]
    refine ⟨?_, ih fun r hmem => hr r (List.mem_cons_of_mem _ hmem)⟩
    simp [wrapBody, isUnicode_of_isFlowId (hr root List.mem_cons_self), hbody.isUnicode]

theorem isUnicode_qualify {root : Text} {n : Nat} :
    IsUnicode (qualify root n) ↔ IsUnicode root := by
  simp [qualify, qualifier]

theorem isUnicode_compiledTo {compile : Text → Except Failure Text}
    (hc : ∀ {t m}, compile t = .ok m → IsUnicode m) {directive markup : Option Text}
    (h : CompiledTo compile directive markup) : ∀ m, markup = some m → IsUnicode m := by
  cases h with
  | unset => simp
  | set h =>
    rintro m ⟨⟩
    exact hc h

/-- The animations repeat ids and markup. -/
theorem isUnicode_mapping {numbered : List (Flow × Nat)}
    {entries : List (Option (Text × Animation))}
    (hid : ∀ x ∈ numbered, isFlowId x.1.id = true)
    (h : List.Forall₂ (fun x e => (x.1.qualifiedAt x.2).animationEntry = .ok e) numbered entries) :
    IsUnicode (Animations.mapping (entries.filterMap id)) := by
  rw [Animations.mapping, Animations.payload, Json.isUnicode_print_object, List.forall_mem_map]
  rintro ⟨key, a⟩ hmem
  -- Every entry was made from a flow, whose id and markup it repeats.
  obtain ⟨e, he, hsome⟩ := List.mem_filterMap.mp hmem
  obtain ⟨x, hx, hentry⟩ := exists_of_forall₂ h he
  obtain ⟨animation, hanim, hae⟩ := animationEntry_eq_ok.mp hentry
  rw [id, ← hae] at hsome
  obtain ⟨a', rfl, hpair⟩ := Option.map_eq_some_iff.mp hsome
  cases hpair
  obtain ⟨_, hfocus, hhighlight⟩ := animation_eq_some.mp hanim
  refine ⟨isUnicode_qualify.mpr (isUnicode_of_isFlowId (hid x hx)), ?_⟩
  have hf := isUnicode_compiledTo isUnicode_compileFocus hfocus
  have hh := isUnicode_compiledTo isUnicode_compileHighlight hhighlight
  show IsUnicode a.payload.print
  rw [Animation.payload, Json.isUnicode_print_object, List.forall_mem_append,
    forall_mem_optionalMember, forall_mem_optionalMember]
  exact ⟨fun m hm => ⟨by simp, by simpa using hf m hm⟩,
    fun m hm => ⟨by simp, by simpa using hh m hm⟩⟩

theorem isUnicode_narrated {f : Flow} (position : Nat) (hid : isFlowId f.id = true) :
    (f.qualifiedAt position).narrated.IsUnicode ↔ IsUnicode f.html := by
  have hn := shownAs_narrated f position
  rw [Flow.IsUnicode, isUnicode_payload_flow, hn.id, hn.html, hn.focus, hn.highlight,
    isUnicode_qualify]
  have hroot := isUnicode_of_isFlowId hid
  split <;> simp [hroot]

/-- **Only the title and the texts of the flows** can keep a page from being written. -/
theorem isUnicode_render_iff {w : Workspace} {d : Document} {folder : FolderName} {b : Bundle}
    (hd : d.IsValid) (h : (compileDocument w d folder).outcome = .ok b) (title : Text) :
    IsUnicode (b.render title) ↔ IsUnicode title ∧ ∀ f ∈ d.flows, IsUnicode f.html := by
  obtain ⟨bodies, entries, hbodies, hanim, rfl⟩ := exists_of_compileDocument h
  have hid : ∀ x ∈ d.numbered, isFlowId x.1.id = true := fun x hx =>
    hd.id x.1 (List.fst_mem_of_mem_zipIdx hx)
  have hfragments := (isUnicode_join (isUnicode_ofString "\n\n")).mpr
    (isUnicode_fragments (fun _ => isFlowId_of_mem_pictures hd) hbodies)
  have hmapping := isUnicode_mapping hid hanim
  -- The narration has the settings, which are plain, and the flows' texts.
  have hnarration : IsUnicode (d.rebuild (mapFlows Flow.narrated d.qualified)).narration ↔
      ∀ f ∈ d.flows, IsUnicode f.html := by
    rw [isUnicode_narration, settings_rebuild, flows_rebuild_qualified, Document.qualifiedFlows,
      List.map_map, List.forall_mem_map]
    have hshown : ∀ x ∈ d.numbered,
        ((Flow.narrated ∘ fun x : Flow × Nat => x.1.qualifiedAt x.2) x).IsUnicode ↔
          IsUnicode x.1.html := fun x hx => isUnicode_narrated x.2 (hid x hx)
    have hfst : d.numbered.map Prod.fst = d.flows := List.zipIdx_map_fst ..
    rw [forall₂_congr hshown, ← hfst, List.forall_mem_map]
    exact and_iff_right (isUnicode_settings hd.settings)
  have hstyle : IsUnicode (d.rebuild (mapFlows Flow.narrated d.qualified)).settings.style := by
    rw [settings_rebuild]
    exact isUnicode_style hd.settings
  rw [isUnicode_render]
  simp only [Document.bundle, hfragments, hmapping, hnarration, hstyle, and_true, true_and]

end SvgDeck
