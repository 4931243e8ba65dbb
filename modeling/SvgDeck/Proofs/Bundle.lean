/-
A compiled slideshow agrees with its document.

`outcome_compileDocument` puts the passes together: the pictures come first, then the
directives, flow by flow, and nothing can fail behind them.  What the passes return is
described by `Bundle.Agrees`.  The flows keep their settings, their tree and their
order; the flow at position `k` is shown under the id that the author gave it, qualified
by `k`; the animations have the flows with a directive, in order; and each picture is
there once, where its id is first seen.  `compileDocument_agrees` says that this holds
of every slideshow that compiles.
-/
import SvgDeck.Bundle
import SvgDeck.Proofs.Animation
import SvgDeck.Proofs.Asset
import SvgDeck.Proofs.Validity

namespace SvgDeck

/-! ### The passes in sequence -/

/-- The ids that the author gave, each once. -/
def Document.pictures (d : Document) : List Text := Text.distinct (d.flows.map (·.id))

theorem nodup_pictures (d : Document) : d.pictures.Nodup := Text.nodup_distinct _

theorem isFlowId_of_mem_pictures {d : Document} (hd : d.IsValid) {root : Text}
    (h : root ∈ d.pictures) : isFlowId root = true := by
  rw [Document.pictures, Text.mem_distinct] at h
  obtain ⟨f, hf, rfl⟩ := List.mem_map.mp h
  exact hd.id f hf

theorem roots_qualified (d : Document) : roots d.qualified = d.pictures := by
  rw [roots, root_qualified, Document.pictures]

/-- A document compiled with given pictures and animations. -/
def Document.bundle (d : Document) (fragments : Text) (animations : Animations) : Bundle where
  document := d.rebuild (mapFlows Flow.narrated d.qualified)
  fragments := fragments
  narration := (d.rebuild (mapFlows Flow.narrated d.qualified)).narration
  mapping := animations.mapping

theorem outcome_compileAnimations_qualified (d : Document) :
    (compileAnimations d.qualified).outcome =
      (d.qualifiedFlows.mapM Flow.animationEntry).map (·.filterMap id) := by
  rw [outcome_compileAnimations, flow_qualified]
  have hn := nodup_id_qualifiedFlows d
  rw [← flow_qualified, List.map_map] at hn
  exact hn

theorem outcome_compileDocument (w : Workspace) (d : Document) (folder : FolderName) :
    (compileDocument w d folder).outcome = (do
      let fragments ← (buildFragments w folder d.pictures).outcome
      let entries ← d.qualifiedFlows.mapM Flow.animationEntry
      return d.bundle fragments (entries.filterMap id)) := by
  simp only [compileDocument, assignIds, Run.outcome_bind, Run.outcome_write, Run.outcome_pure,
    ok_bind, roots_qualified, outcome_compileAnimations_qualified]
  refine congrArg _ (funext fun fragments => ?_)
  cases d.qualifiedFlows.mapM Flow.animationEntry <;> rfl

/-! ### Agreement -/

/-- `g` is how the page shows the flow `f` at a position: centred where the author wants it, and
without its directives. -/
structure ShownAs (f : Flow) (position : Nat) (g : Flow) : Prop where
  id : g.id = qualify f.id position
  html : g.html =
    if f.centered = some true then "<div class=\"centered\">" ++ f.html ++ "</div>" else f.html
  seconds : g.seconds = f.seconds
  centered : g.centered = f.centered
  focus : g.focus = none
  highlight : g.highlight = none

/-- `entry` holds the animation of the flow `f` at a position, under its qualified id. -/
structure AnimatedAs (f : Flow) (position : Nat) (entry : Text × Animation) : Prop where
  id : entry.1 = qualify f.id position
  focus : ∀ flow, CompiledTo (compileFocus · flow) f.focus entry.2.focus
  highlight : ∀ flow, CompiledTo (compileHighlight · flow) f.highlight entry.2.highlight

/-- The bundle holds what the document says, with these animations and pictures. -/
structure Bundle.Agrees (b : Bundle) (w : Workspace) (folder : Path) (d : Document)
    (animations : Animations) (pictures : List Text) : Prop where
  settings : b.document.settings = d.settings
  shape : b.document.shape = d.shape
  flows : List.Forall₂ (fun x g => ShownAs x.1 x.2 g) d.numbered b.document.flows
  narration : b.narration = b.document.narration
  mapping : b.mapping = animations.mapping
  animated : List.Forall₂ (fun x entry => AnimatedAs x.1 x.2 entry)
    (d.numbered.filter (·.1.hasDirective)) animations
  distinct : FirstSeen (d.flows.map (·.id)) pictures
  fragments : ∃ bodies, List.Forall₂ (HasBody w folder) pictures bodies ∧
    b.fragments = Text.join "\n\n" (List.zipWith wrapBody pictures bodies)
  /-- The page finds the picture of each flow. -/
  picture_of_flow : ∀ g ∈ b.document.flows, rootOf g.id ∈ pictures
  /-- Every animation belongs to a flow that the page shows. -/
  flow_of_animation : ∀ entry ∈ animations, ∃ g ∈ b.document.flows, g.id = entry.1

theorem shownAs_narrated (f : Flow) (position : Nat) :
    ShownAs f position (f.qualifiedAt position).narrated := by
  by_cases hc : f.centered = some true
  · constructor <;> simp [Flow.narrated, Flow.centre, Flow.withoutDirectives, Flow.qualifiedAt, hc]
  · constructor <;> simp [Flow.narrated, Flow.centre, Flow.withoutDirectives, Flow.qualifiedAt, hc]

/-- What a focus compiles to does not depend on the flow. -/
theorem compiledTo_focus_congr {flow flow' : Text} {directive markup : Option Text}
    (h : CompiledTo (compileFocus · flow) directive markup) :
    CompiledTo (compileFocus · flow') directive markup := by
  rcases h with _ | h
  · exact .unset
  · exact .set (compileFocus_eq_ok.mpr (compileFocus_eq_ok.mp h))

theorem compiledTo_highlight_congr {flow flow' : Text} {directive markup : Option Text}
    (h : CompiledTo (compileHighlight · flow) directive markup) :
    CompiledTo (compileHighlight · flow') directive markup := by
  rcases h with _ | h
  · exact .unset
  · exact .set (compileHighlight_eq_ok.mpr (compileHighlight_eq_ok.mp h))

theorem animationEntry_eq_ok {f : Flow} {e : Option (Text × Animation)} :
    f.animationEntry = .ok e ↔ ∃ a, f.animation = .ok a ∧ a.map (f.id, ·) = e := map_eq_ok

theorem Flow.hasDirective_qualifiedAt (f : Flow) (position : Nat) :
    (f.qualifiedAt position).hasDirective = f.hasDirective := rfl

/-- The flows without a directive are the ones that leave nothing behind. -/
theorem forall₂_animatedAs {numbered : List (Flow × Nat)}
    {entries : List (Option (Text × Animation))}
    (h : List.Forall₂ (fun x e => (x.1.qualifiedAt x.2).animationEntry = .ok e) numbered entries) :
    List.Forall₂ (fun x entry => AnimatedAs x.1 x.2 entry)
      (numbered.filter (·.1.hasDirective)) (entries.filterMap id) := by
  induction h with
  | nil => exact .nil
  | @cons x e numbered entries hx _ ih =>
    obtain ⟨a, ha, rfl⟩ := animationEntry_eq_ok.mp hx
    -- A flow without a directive is filtered out on both sides.
    cases a with
    | none =>
      have hd := animation_eq_none.mp ha
      rw [Flow.hasDirective_qualifiedAt] at hd
      rw [List.filter_cons_of_neg (by simp [hd])]
      exact ih
    | some a =>
      obtain ⟨hd, hf, hh⟩ := animation_eq_some.mp ha
      rw [Flow.hasDirective_qualifiedAt] at hd
      rw [List.filter_cons_of_pos (by simp [hd])]
      have hentry : AnimatedAs x.1 x.2 ((x.1.qualifiedAt x.2).id, a) :=
        ⟨rfl, fun _ => compiledTo_focus_congr hf, fun _ => compiledTo_highlight_congr hh⟩
      exact .cons hentry ih

/-- Pictures that can all be read have a body each. -/
theorem exists_bodies {w : Workspace} {folder : Path} {roots fragments : List Text}
    (h : List.Forall₂ (fun root x => fragment w folder root = .ok x) roots fragments) :
    ∃ bodies, List.Forall₂ (HasBody w folder) roots bodies ∧
      fragments = List.zipWith wrapBody roots bodies := by
  induction h with
  | nil => exact ⟨[], .nil, rfl⟩
  | cons hx _ ih =>
    obtain ⟨body, hbody, rfl⟩ := fragment_eq_ok.mp hx
    obtain ⟨bodies, hbodies, rfl⟩ := ih
    exact ⟨body :: bodies, .cons hbody hbodies, rfl⟩

theorem flows_bundle (d : Document) (fragments : Text) (animations : Animations) :
    (d.bundle fragments animations).document.flows =
      d.numbered.map fun x => (x.1.qualifiedAt x.2).narrated := by
  rw [Document.bundle, flows_rebuild_qualified, Document.qualifiedFlows, List.map_map]
  rfl

/-- What a compiled document is made of: a body for each picture and an entry for each flow. -/
theorem exists_of_compileDocument {w : Workspace} {d : Document} {folder : FolderName} {b : Bundle}
    (h : (compileDocument w d folder).outcome = .ok b) :
    ∃ bodies entries, List.Forall₂ (HasBody w folder.path) d.pictures bodies ∧
      List.Forall₂ (fun x e => (x.1.qualifiedAt x.2).animationEntry = .ok e) d.numbered entries ∧
      b = d.bundle (Text.join "\n\n" (List.zipWith wrapBody d.pictures bodies))
        (entries.filterMap id) := by
  rw [outcome_compileDocument, bind_eq_ok] at h
  obtain ⟨x, hx, h⟩ := h
  obtain ⟨entries, hentries, h⟩ := bind_eq_ok.mp h
  cases h
  -- Both passes returned, so each has an answer for every picture and for every flow.
  obtain ⟨_, _, fragments, hfrag, rfl⟩ := (buildFragments_eq_ok (nodup_pictures d)).mp hx
  obtain ⟨bodies, hbodies, rfl⟩ := exists_bodies (mapM_eq_ok.mp hfrag)
  have hanim := mapM_eq_ok.mp hentries
  rw [Document.qualifiedFlows, List.forall₂_map_left_iff] at hanim
  exact ⟨bodies, entries, hbodies, hanim, rfl⟩

/-- **A slideshow that compiles agrees with its document**: the text, the animations and the
pictures of the page are those of the document's flows, position by position. -/
theorem compileDocument_agrees {w : Workspace} {d : Document} {folder : FolderName} {b : Bundle}
    (h : (compileDocument w d folder).outcome = .ok b) :
    ∃ animations pictures, b.Agrees w folder.path d animations pictures := by
  obtain ⟨bodies, entries, hbodies, hanim, rfl⟩ := exists_of_compileDocument h
  refine ⟨entries.filterMap id, d.pictures, ?_⟩
  constructor
  case settings => exact settings_rebuild d _
  case shape => exact shape_rebuild d _
  case flows =>
    rw [flows_bundle, List.forall₂_map_right_iff]
    exact List.forall₂_same.mpr fun x _ => shownAs_narrated x.1 x.2
  case narration => rfl
  case mapping => rfl
  case animated => exact forall₂_animatedAs hanim
  case distinct => exact Text.firstSeen_distinct _
  case fragments => exact ⟨bodies, hbodies, rfl⟩
  case picture_of_flow =>
    intro g hg
    rw [flows_bundle] at hg
    obtain ⟨⟨f, k⟩, hx, rfl⟩ := List.mem_map.mp hg
    rw [(shownAs_narrated f k).id, rootOf_qualify, Document.pictures, Text.mem_distinct]
    exact List.mem_map_of_mem (List.fst_mem_of_mem_zipIdx hx)
  case flow_of_animation =>
    intro entry hentry
    obtain ⟨x, hx, hxe⟩ := exists_of_forall₂ (forall₂_animatedAs hanim) hentry
    refine ⟨(x.1.qualifiedAt x.2).narrated, ?_, ?_⟩
    · rw [flows_bundle]
      exact List.mem_map.mpr ⟨x, List.mem_of_mem_filter hx, rfl⟩
    · rw [(shownAs_narrated x.1 x.2).id, hxe.id]

/-! ### A talk that compiles -/

/-- A text as the bytes of a file. -/
def fileOf (t : Text) : Entry := .file (t.flatMap Utf8.encodeCodePoint)

/-- A talk that shows one picture twice, and another one whose name looks like a qualified id. -/
def talk : Document where
  settings := ⟨"1em", "2.5em", none, none, none, none, none, none, none, none⟩
  sections :=
    [⟨[⟨"a", "One.", .zero false, none, some "0,0,1000,1000;250,250,500,500 0 2", none⟩,
      ⟨"a__1", "Two.", .zero false, some true, none, none⟩], none⟩,
    ⟨[], some []⟩,
    ⟨[⟨"a", "Three.", .zero false, none, none, some "100,100,300,200 #ea4335 4 0;1 0 1"⟩],
      some [⟨[]⟩]⟩]

/-- A folder with the pictures of the talk. -/
def talkFolder : Workspace where
  entries :=
    [(["talk"], .folder), (["talk", "a.svg"], fileOf "<svg>a</svg>"),
      (["talk", "a__1.svg"], fileOf "<?xml?><svg><svg>b</svg></svg>")]
  current := []

theorem talk_compiles : (compileDocument talkFolder talk (.ofText "talk")).outcome.isOk = true := by
  decide +kernel

theorem exists_of_isOk {α : Type} {x : Except Failure α} (h : x.isOk = true) :
    ∃ a, x = .ok a := by
  cases x with
  | ok a => exact ⟨a, rfl⟩
  | error _ => cases h

theorem compileDocument_agrees_talk :
    ∃ b, (compileDocument talkFolder talk (.ofText "talk")).outcome = .ok b ∧
      ∃ animations pictures, b.Agrees talkFolder (.ofText "talk") talk animations pictures := by
  obtain ⟨b, hb⟩ := exists_of_isOk talk_compiles
  exact ⟨b, hb, compileDocument_agrees hb⟩

end SvgDeck
