/-
What the texts of a page do to its script.

A value in print does to the tokenizer's mode what the texts in it do one after the other, which
is `ActsAs`, because nothing but a text can hold a bracket.  Ids and settings hold none, and the
brackets of markup open no comment and no script, so

* `actsAs_document` — the narration does what the statements of the flows do;
* `actsAs_mapping` — the mapping leaves the mode as it is.
-/
import SvgDeck.Proofs.ScriptData
import SvgDeck.Proofs.Highlight
import SvgDeck.Proofs.Payload

namespace SvgDeck

open Text

namespace ScriptData

/-! ### JSON -/

/-- What a row of texts does to the mode, one after the other. -/
def afterAll (ts : List Text) (m : Mode) : Mode := ts.foldl (fun m t => after t m) m

/-- In print, the value does to the mode what the texts do. -/
def ActsAs (v : Json) (ts : List Text) : Prop := Carries safeStep v.print (afterAll ts)

/-- The members, by themselves, do what the texts do. -/
def MembersActAs (members : List (Text × Json)) (ts : List Text) : Prop :=
  ∃ tss, List.Forall₂ (fun m ts => (∀ c ∈ m.1, IsCalm c) ∧ ActsAs m.2 ts) members tss ∧
    tss.flatten = ts

section Values

variable {σ : State → CodePoint → State} {t separator : Text} {c : CodePoint} {m : Mode}
  {parts : List Text} {tss : List (List Text)} {ts us : List Text} {v : Json} {key : Text}
  {members : List (Text × Json)}

theorem afterAll_append : afterAll (ts ++ us) m = afterAll us (afterAll ts m) := List.foldl_append

theorem isCalm_of_kind (h : kind c = .letter ∨ kind c = .other) : IsCalm c := by
  constructor
  · rintro rfl
    revert h
    decide
  · rintro rfl
    revert h
    decide

theorem isCalm_of_not {p : CodePoint → Bool} (hless : p (CodePoint.ofChar '<') = false)
    (hgreater : p (CodePoint.ofChar '>') = false) (c : CodePoint) (h : p c = true) : IsCalm c := by
  constructor
  · rintro rfl
    rw [hless] at h
    cases h
  · rintro rfl
    rw [hgreater] at h
    cases h

/-- Parts that are joined do what they do one after the other. -/
theorem carries_join (hseparator : Carries σ separator id)
    (h : List.Forall₂ (fun part ts => Carries σ part (afterAll ts)) parts tss) :
    Carries σ (join separator parts) (afterAll tss.flatten) := by
  induction h with
  | nil => exact carries_nil
  | @cons part ts parts tss hpart h ih =>
    have hrest : Carries σ (if parts = [] then [] else separator ++ join separator parts)
        (afterAll tss.flatten) := by
      split
      · next hnil =>
        subst hnil
        cases h
        exact carries_nil
      · exact hseparator.append ih
    have hjoin : join separator (part :: parts) =
        part ++ if parts = [] then [] else separator ++ join separator parts := by
      split
      · next hnil => simp [hnil, join]
      · next hne => rw [join, List.intercalate_cons_of_ne_nil hne, List.append_assoc]; rfl
    rw [hjoin]
    intro s hs
    rw [List.flatten_cons, afterAll_append]
    exact hpart.append hrest s hs

theorem carries_bracketed {left right : CodePoint} (hleft : IsCalm left) (hright : IsCalm right)
    (h : List.Forall₂ (fun part ts => Carries safeStep part (afterAll ts)) parts tss) :
    Carries safeStep (Json.bracketed left right parts) (afterAll tss.flatten) :=
  have hl := carries_id_of_isCalm (List.forall_mem_singleton.mpr hleft)
  have hr := carries_id_of_isCalm (List.forall_mem_singleton.mpr hright)
  (hl.append (carries_join (carries_id_of_isCalm (by decide)) h)).append hr

/-- No escape brings a bracket in. -/
theorem isCalm_of_mem_escape (h : ∀ c ∈ t, IsCalm c) : ∀ c ∈ t.flatMap Json.escape, IsCalm c := by
  intro c hc
  obtain ⟨d, hd, hc⟩ := List.mem_flatMap.mp hc
  rcases escape_eq_or d with he | ⟨u, he, hu⟩
  · rw [he, List.mem_singleton] at hc
    exact hc ▸ h d hd
  · rw [he, List.mem_cons] at hc
    rcases hc with rfl | hc
    · decide
    · exact isCalm_of_kind (hu c hc)

theorem isCalm_printText (h : ∀ c ∈ t, IsCalm c) : ∀ c ∈ Json.printText t, IsCalm c := by
  have hquote : ∀ c ∈ ofString "\"", IsCalm c := by decide
  exact List.forall_mem_append.mpr
    ⟨List.forall_mem_append.mpr ⟨hquote, isCalm_of_mem_escape h⟩, hquote⟩

theorem actsAs_text (t : Text) : ActsAs (.text t) [t] := carries_printText t

theorem actsAs_of_isCalm (h : ∀ c ∈ v.print, IsCalm c) : ActsAs v [] := carries_id_of_isCalm h

theorem actsAs_array {α : Type} {as : List α} {toJson : α → Json} {said : α → List Text}
    (h : ∀ a ∈ as, ActsAs (toJson a) (said a)) :
    ActsAs (.array (as.map toJson)) (as.flatMap said) := by
  rw [ActsAs, Json.print, Json.printItems_eq_map, List.flatMap_def]
  refine carries_bracketed (by decide) (by decide) ?_
  rw [List.map_map, List.forall₂_map_left_iff, List.forall₂_map_right_iff, List.forall₂_same]
  exact h

theorem actsAs_object (h : MembersActAs members ts) : ActsAs (.object members) ts := by
  obtain ⟨tss, h, rfl⟩ := h
  rw [ActsAs, Json.print, Json.printMembers_eq_map]
  refine carries_bracketed (by decide) (by decide) (List.forall₂_map_left_iff.mpr (h.imp ?_))
  rintro ⟨key, value⟩ ts ⟨hkey, hvalue⟩
  have hcolon : Carries safeStep (": " : Text) id := carries_id_of_isCalm (by decide)
  exact ((carries_id_of_isCalm (isCalm_printText hkey)).append hcolon).append hvalue

theorem membersActAs_nil : MembersActAs [] [] := ⟨[], .nil, rfl⟩

theorem MembersActAs.append {more : List (Text × Json)} (h : MembersActAs members ts)
    (h' : MembersActAs more us) : MembersActAs (members ++ more) (ts ++ us) := by
  obtain ⟨tss, h, rfl⟩ := h
  obtain ⟨uss, h', rfl⟩ := h'
  exact ⟨tss ++ uss, List.rel_append h h', List.flatten_append⟩

theorem membersActAs_flatten {mss : List (List (Text × Json))}
    (h : List.Forall₂ MembersActAs mss tss) : MembersActAs mss.flatten tss.flatten := by
  induction h with
  | nil => exact membersActAs_nil
  | cons hms _ ih => exact hms.append ih

theorem membersActAs_member (hkey : ∀ c ∈ key, IsCalm c) (h : ActsAs v ts) :
    MembersActAs (member key v) ts :=
  ⟨[ts], .cons ⟨hkey, h⟩ .nil, by simp⟩

theorem membersActAs_optional {α : Type} {toJson : α → Json} {o : Option α}
    (hkey : ∀ c ∈ key, IsCalm c) (h : ∀ a ∈ o, ActsAs (toJson a) []) :
    MembersActAs (optionalMember key toJson o) [] := by
  cases o with
  | none => exact membersActAs_nil
  | some a => exact membersActAs_member hkey (h a rfl)

/-- A text of which nothing is escaped and nothing is a bracket. -/
theorem actsAs_nil_of_isCalm (h : ∀ c ∈ t, IsCalm c) : ActsAs (.text t) [] :=
  actsAs_of_isCalm (isCalm_printText h)

theorem actsAs_bool (b : Bool) : ActsAs (.bool b) [] := by
  refine actsAs_of_isCalm ?_
  cases b <;> decide

theorem actsAs_float (x : Binary64) : ActsAs (.float x) [] := by
  refine actsAs_of_isCalm ?_
  rw [Json.print]
  cases x with
  | nan => decide
  | infinite negative => cases negative <;> decide
  | finite negative m e h =>
    obtain ⟨body, htext, hbody⟩ := Binary64.exists_text_finite negative h
    have hmarks : ∀ c ∈ ofString ".e+-", IsCalm c := by decide
    show ∀ c ∈ (Binary64.finite negative m e h).text, IsCalm c
    rw [htext]
    refine List.forall_mem_append.mpr ⟨?_, fun c hc => ?_⟩
    · cases negative <;> decide
    · rcases hbody.parts c hc with hdigit | hmark
      · exact isCalm_of_not (by decide) (by decide) c hdigit
      · exact hmarks c hmark

/-- A text that leaves the mode as it is, printed or not. -/
def Inert (t : Text) : Prop := Carries safeStep (t.flatMap Json.escape) id

theorem Inert.actsAs (h : Inert t) : ActsAs (.text t) [] := by
  have hquote : Carries safeStep (ofString "\"") id := carries_id_of_isCalm (by decide)
  exact (hquote.append h).append hquote

theorem Inert.append {u : Text} (ht : Inert t) (hu : Inert u) : Inert (t ++ u) := by
  rw [Inert, List.flatMap_append]
  exact Carries.append ht hu

theorem inert_flatMap {α : Type} {l : List α} {f : α → Text} (h : ∀ a ∈ l, Inert (f a)) :
    Inert (l.flatMap f) := by
  induction l with
  | nil => exact carries_nil
  | cons a l ih =>
    obtain ⟨ha, hl⟩ := List.forall_mem_cons.mp h
    rw [List.flatMap_cons]
    exact ha.append (ih hl)

theorem inert_join (hseparator : Inert separator) (h : ∀ part ∈ parts, Inert part) :
    Inert (join separator parts) := by
  induction parts with
  | nil => exact carries_nil
  | cons part parts ih =>
    obtain ⟨hpart, hparts⟩ := List.forall_mem_cons.mp h
    by_cases hne : parts = []
    · simpa [hne, join] using hpart
    · rw [join, List.intercalate_cons_of_ne_nil hne]
      exact (hpart.append hseparator).append (ih hparts)

theorem inert_of_isCalm (h : ∀ c ∈ t, IsCalm c) : Inert t :=
  carries_id_of_isCalm (isCalm_of_mem_escape h)

end Values

/-! ### Markup -/

section Markup

open Directive

variable {t name values begins lasts x y w height color thickness animation : Text}

theorem inert_of_isPlain (h : IsPlain t) : Inert t := by
  refine inert_of_isCalm fun c hc => ⟨?_, ?_⟩
  · rintro rfl
    exact absurd (h _ hc) (by decide)
  · rintro rfl
    exact absurd (h _ hc) (by decide)

theorem inert_escapeMarkup (t : Text) : Inert t.escapeMarkup := by
  refine inert_of_isCalm fun c hc => ⟨?_, ?_⟩
  · rintro rfl
    cases not_isMark_of_mem_escapeMarkup hc
  · rintro rfl
    cases not_isMark_of_mem_escapeMarkup hc

theorem inert_animation (hname : Inert name) (hvalues : Inert values) (hbegins : Inert begins)
    (hlasts : Inert lasts) : Inert (Directive.animation name values begins lasts) := by
  refine (((((((Inert.append ?_ hname).append ?_).append hvalues).append ?_).append hbegins).append
    ?_).append hlasts).append ?_
  all_goals exact carries_id_of_forall (by decide +kernel)

theorem inert_rectElement (hx : Inert x) (hy : Inert y) (hw : Inert w) (hheight : Inert height)
    (hthickness : Inert thickness) (hanimation : Inert animation) :
    Inert (rectElement x y w height color thickness animation) := by
  have hcolor := inert_escapeMarkup color
  refine (((((((((((((Inert.append ?_ hx).append ?_).append hy).append ?_).append hw).append
    ?_).append hheight).append ?_).append hcolor).append ?_).append hthickness).append ?_).append
    hanimation).append ?_
  all_goals exact carries_id_of_forall (by decide +kernel)

theorem inert_viewBox {r : Rect} (h : r.IsWritten) : Inert r.viewBox := by
  obtain ⟨x, y, w, height, hsource, hx, hy, hw, hheight⟩ := h
  refine inert_join (inert_of_isCalm (by decide)) ?_
  rw [Rect.components, hsource]
  simp [inert_of_isPlain hx.isPlain, inert_of_isPlain hy.isPlain, inert_of_isPlain hw.isPlain,
    inert_of_isPlain hheight.isPlain]

theorem inert_compileFocus {flow m : Text} (h : compileFocus t flow = .ok m) : Inert m := by
  obtain ⟨focus, d, hread, _, _, rfl⟩ := compileFocus_eq_ok.mp h
  obtain ⟨_, _, _, _, hrects, _⟩ := Focus.parse_eq_ok hread
  have hvalues : Inert (join ";" (focus.keyframes.map Rect.viewBox)) :=
    inert_join (inert_of_isCalm (by decide)) (List.forall_mem_map.mpr fun r hr =>
      inert_viewBox (Rect.isWritten_of_parseList hrects r hr))
  have hseconds := fun d => inert_of_isPlain (isPlain_formatSeconds d)
  exact inert_animation (inert_of_isCalm (by decide)) hvalues (hseconds _) (hseconds _)

theorem inert_compileHighlight {flow m : Text} (h : compileHighlight t flow = .ok m) : Inert m := by
  obtain ⟨highlight, d, hread, _, _, _, rfl⟩ := compileHighlight_eq_ok.mp h
  have hread := Highlight.isRead hread
  refine inert_flatMap fun r hr => ?_
  obtain ⟨x, y, w, height, hcomponents, hx, hy, hw, hheight⟩ := hread.rects r hr
  rw [outline_eq highlight _ hcomponents, animate_eq]
  have hseconds := fun d => inert_of_isPlain (isPlain_formatSeconds d)
  exact inert_rectElement (inert_of_isPlain hx) (inert_of_isPlain hy) (inert_of_isPlain hw)
    (inert_of_isPlain hheight) (inert_of_isPlain hread.thickness)
    (inert_animation (inert_of_isCalm (by decide)) (inert_of_isPlain hread.opacities) (hseconds _)
      (hseconds _))

end Markup

/-! ### The mapping -/

theorem isCalm_of_isFlowId {t : Text} (h : isFlowId t = true) : ∀ c ∈ t, IsCalm c := by
  rw [isFlowId, Bool.and_eq_true, List.all_eq_true] at h
  exact fun c hc => isCalm_of_not (by decide) (by decide) c (h.2 c hc)

theorem actsAs_compiledTo {compile : Text → Except Failure Text}
    (hcompile : ∀ {t m}, compile t = .ok m → Inert m) {directive markup : Option Text}
    (h : CompiledTo compile directive markup) : ∀ m ∈ markup, ActsAs (.text m) [] := by
  cases h with
  | unset => simp
  | set h =>
    rintro m ⟨⟩
    exact (hcompile h).actsAs

theorem actsAs_animation {f : Flow} {position : Nat} {entry : Text × Animation}
    (h : AnimatedAs f position entry) : ActsAs entry.2.payload [] :=
  have hfocus := actsAs_compiledTo inert_compileFocus (h.focus [])
  have hhighlight := actsAs_compiledTo inert_compileHighlight (h.highlight [])
  actsAs_object ((membersActAs_optional (by decide) hfocus).append
    (membersActAs_optional (by decide) hhighlight))

/-- The mapping leaves the mode as it is. -/
theorem actsAs_mapping {numbered : List (Flow × Nat)} {entries : List (Option (Text × Animation))}
    (hid : ∀ x ∈ numbered, isFlowId x.1.id = true)
    (h : List.Forall₂ (fun x e => (x.1.qualifiedAt x.2).animationEntry = .ok e) numbered entries) :
    ActsAs (Animations.payload (entries.filterMap id)) [] := by
  refine actsAs_object ⟨(entries.filterMap id).map fun _ => [], ?_, by simp⟩
  rw [List.forall₂_map_left_iff, List.forall₂_map_right_iff, List.forall₂_same]
  intro entry hentry
  obtain ⟨x, hx, hanimated⟩ := exists_of_forall₂ (forall₂_animatedAs h) hentry
  have hqualified := isFlowId_qualify (hid x (List.mem_of_mem_filter hx)) x.2
  rw [← hanimated.id] at hqualified
  exact ⟨isCalm_of_isFlowId hqualified, actsAs_animation hanimated⟩

/-! ### The narration -/

/-- A text is what it begins with and the rest. -/
theorem isCalm_of_parts {p : CodePoint → Bool} (hp : ∀ c, p c = true → IsCalm c) {t : Text}
    (h : ∀ c ∈ t.dropWhile p, IsCalm c) : ∀ c ∈ t, IsCalm c := by
  rw [← List.takeWhile_append_dropWhile (p := p) (l := t), List.forall_mem_append]
  exact ⟨fun c hc => hp c (List.all_eq_true.mp List.all_takeWhile c hc), h⟩

theorem isCalm_of_isFontSize {t : Text} (h : isFontSize t = true) : ∀ c ∈ t, IsCalm c := by
  simp only [isFontSize, Bool.and_eq_true, List.contains_iff_mem] at h
  have hunits : ∀ u ∈ ([("em" : Text), ("px" : Text), ("vmax" : Text)] : List Text),
      ∀ c ∈ u, IsCalm c := by decide
  exact isCalm_of_parts (isCalm_of_not (by decide) (by decide)) (hunits _ h.2)

theorem isCalm_of_isColor {t : Text} (h : isColor t = true) : ∀ c ∈ t, IsCalm c := by
  cases t with
  | nil => exact fun c hc => absurd hc List.not_mem_nil
  | cons c digits =>
    simp only [isColor, Bool.and_eq_true, decide_eq_true_eq, List.all_eq_true] at h
    obtain ⟨⟨⟨rfl, _⟩, _⟩, hdigits⟩ := h
    exact List.forall_mem_cons.mpr ⟨by decide, fun d hd =>
      isCalm_of_not (p := fun c => c.hexDigit?.isSome) (by decide) (by decide) d (hdigits d hd)⟩

theorem isCalm_of_isBorder {t : Text} (h : isBorder t = true) : ∀ c ∈ t, IsCalm c := by
  rw [isBorder, Bool.and_eq_true] at h
  refine isCalm_of_parts (p := CodePoint.isAsciiLower) (isCalm_of_not (by decide) (by decide)) ?_
  cases hw : t.dropWhile CodePoint.isAsciiLower with
  | nil => exact fun c hc => absurd hc List.not_mem_nil
  | cons c width =>
    simp only [hw, Bool.and_eq_true, decide_eq_true_eq] at h
    obtain ⟨_, ⟨rfl, _⟩, hpx⟩ := h
    refine List.forall_mem_cons.mpr ⟨by decide, ?_⟩
    refine isCalm_of_parts (p := CodePoint.isAsciiDigit)
      (isCalm_of_not (by decide) (by decide)) ?_
    rw [hpx]
    decide

theorem membersActAs_settings {s : Settings} (h : s.IsValid) : MembersActAs s.members [] := by
  have hmin := actsAs_nil_of_isCalm (isCalm_of_isFontSize h.minSize)
  have hmax := actsAs_nil_of_isCalm (isCalm_of_isFontSize h.maxSize)
  have hcolors := h.colors
  have hborders := h.borders
  simp only [List.forall_mem_cons] at hcolors hborders
  have hcolor : ∀ {o : Option Text}, (∀ t ∈ o, isColor t = true) → ∀ t ∈ o, ActsAs (.text t) [] :=
    fun ho t ht => actsAs_nil_of_isCalm (isCalm_of_isColor (ho t ht))
  have hborder : ∀ {o : Option Text}, (∀ t ∈ o, isBorder t = true) →
      ∀ t ∈ o, ActsAs (.text t) [] :=
    fun ho t ht => actsAs_nil_of_isCalm (isCalm_of_isBorder (ho t ht))
  exact membersActAs_flatten <|
    .cons (membersActAs_member (by decide) hmin) <|
    .cons (membersActAs_member (by decide) hmax) <|
    .cons (membersActAs_optional (by decide) (hcolor hcolors.1)) <|
    .cons (membersActAs_optional (by decide) (hcolor hcolors.2.1)) <|
    .cons (membersActAs_optional (by decide) (hborder hborders.1)) <|
    .cons (membersActAs_optional (by decide) (hborder hborders.2.1)) <|
    .cons (membersActAs_optional (by decide) (hborder hborders.2.2.1)) <|
    .cons (membersActAs_optional (by decide) (hborder hborders.2.2.2.1)) <|
    .cons (membersActAs_optional (by decide) fun b _ => actsAs_bool b) <|
    .cons (membersActAs_optional (by decide) fun b _ => actsAs_bool b) .nil

theorem actsAs_flow {f : Flow} (hid : isFlowId f.id = true) (hfocus : f.focus = none)
    (hhighlight : f.highlight = none) : ActsAs f.payload [f.html] := by
  have hid := actsAs_nil_of_isCalm (isCalm_of_isFlowId hid)
  exact actsAs_object <| membersActAs_flatten <|
    .cons (membersActAs_member (by decide) hid) <|
    .cons (membersActAs_member (by decide) (actsAs_text f.html)) <|
    .cons (membersActAs_member (by decide) (actsAs_float f.seconds)) <|
    .cons (membersActAs_optional (by decide) fun b _ => actsAs_bool b) <|
    .cons (membersActAs_optional (by decide) (by simp [hfocus])) <|
    .cons (membersActAs_optional (by decide) (by simp [hhighlight])) .nil

/-- The flows of a page, which have no directives. -/
def IsShown (f : Flow) : Prop := isFlowId f.id = true ∧ f.focus = none ∧ f.highlight = none

theorem membersActAs_flows {flows : List Flow} (h : ∀ f ∈ flows, IsShown f) :
    MembersActAs (flowsMember flows) (flows.map (·.html)) := by
  rw [← List.flatMap_pure_eq_map]
  exact membersActAs_member (by decide)
    (actsAs_array fun f hf => actsAs_flow (h f hf).1 (h f hf).2.1 (h f hf).2.2)

theorem actsAs_section {sec : Section} (h : ∀ f ∈ sec.flowList, IsShown f) :
    ActsAs sec.payload (sec.flowList.map (·.html)) := by
  rw [Section.flowList, List.forall_mem_append] at h
  have hsubsections : MembersActAs (optionalMember "subsections"
      (fun subs => .array (subs.map Subsection.payload)) sec.subsections)
      ((sec.subsectionList.flatMap (·.flows)).map (·.html)) := by
    cases hs : sec.subsections with
    | none =>
      simp only [Section.subsectionList, hs]
      exact membersActAs_nil
    | some subs =>
      simp only [Section.subsectionList, hs, Option.getD_some, List.forall_mem_flatMap] at h ⊢
      rw [List.map_flatMap]
      exact membersActAs_member (by decide)
        (actsAs_array fun sub hsub => actsAs_object (membersActAs_flows (h.2 sub hsub)))
  rw [Section.flowList, List.map_append]
  refine actsAs_object ?_
  simpa using (membersActAs_flows h.1).append hsubsections

theorem actsAs_document {d : Document} (hd : d.IsValid) (h : ∀ f ∈ d.flows, IsShown f) :
    ActsAs d.payload (d.flows.map (·.html)) := by
  have hsections := actsAs_array fun sec hsec =>
    actsAs_section fun f hf => h f (List.mem_flatMap.mpr ⟨sec, hsec, hf⟩)
  rw [Document.flows, List.map_flatMap]
  exact actsAs_object ((membersActAs_settings hd.settings).append
    (membersActAs_member (by decide) hsections))

end ScriptData

end SvgDeck
