/-
Which element a lookup of the player finds.

Two ids of panes, of pictures or of statements are equal only where the author has named a picture
like a pane, or like the statement of a flow.  Without such a name every lookup finds what it is
for; with one, the picture or the pane that stands first is found instead, whatever the lookup was
for.

* `lookups_unambiguous_iff` — ids are distinct, and lookups find what they are for, exactly if no
  name of a picture clashes.
-/
import SvgDeck.Page.Elements
import SvgDeck.Proofs.Passes
import SvgDeck.Proofs.Script
import SvgDeck.Proofs.Verdict

namespace SvgDeck

open Text

section Lookups

variable {pictures flows : List Text}

/-- All elements with an id: those of the page, and those that the player makes. -/
def allElements (pictures flows : List Text) : List Element :=
  loadedElements pictures ++ flows.map .statement

/-- A picture is named like a pane, or like the statement of a flow. -/
def Clashes (pictures flows : List Text) : Prop :=
  ofString "svg-pane" ∈ pictures ∨ ofString "text-pane" ∈ pictures ∨
    ∃ flow ∈ flows, "text-" ++ flow ∈ pictures

/-- Each lookup of the player finds the element that it is for. -/
structure PlayerFinds (pictures flows : List Text) : Prop where
  textPane : elementById (loadedElements pictures) "text-pane" = some .textPane
  statement : ∀ flow ∈ flows,
    elementById (shownElements pictures flows) ("text-" ++ flow) = some (.statement flow)
  picture : ∀ flow ∈ flows,
    elementById (shownElements pictures flows) (rootOf flow) = some (.picture (rootOf flow))

/-! ### Finding an element -/

/-- Where no id is there twice, an element is found by its id. -/
theorem elementById_id {elements : List Element} (hn : (elements.map Element.id).Nodup)
    {e : Element} (he : e ∈ elements) : elementById elements e.id = some e := by
  have hsome : (elementById elements e.id).isSome = true :=
    List.find?_isSome.mpr ⟨e, he, by simp⟩
  obtain ⟨found, hfound⟩ := Option.isSome_iff_exists.mp hsome
  have hid : found.id = e.id := by simpa using List.find?_some hfound
  rw [hfound, List.inj_on_of_nodup_map hn (List.mem_of_find?_eq_some hfound) he hid]

theorem find?_picture {root : Text} (h : root ∈ pictures) :
    (pictures.map Element.picture).find? (·.id = root) = some (.picture root) := by
  induction pictures with
  | nil => cases h
  | cons first pictures ih =>
    rw [List.map_cons, List.find?_cons]
    by_cases hfirst : first = root
    · subst hfirst
      simp [Element.id]
    · have hid : ¬ (Element.picture first).id = root := hfirst
      rw [decide_eq_false hid]
      exact ih ((List.mem_cons.mp h).resolve_left (Ne.symm hfirst))

/-- The pictures come before all elements but one. -/
theorem elementById_picture {root : Text} (h : root ∈ pictures) (hroot : root ≠ "svg-pane")
    (rest : List Element) :
    elementById (.svgPane :: (pictures.map .picture ++ rest)) root = some (.picture root) := by
  have hpane : ¬ Element.svgPane.id = root := fun h => hroot h.symm
  rw [elementById, List.find?_cons, decide_eq_false hpane]
  show (pictures.map Element.picture ++ rest).find? (·.id = root) = _
  rw [List.find?_append, find?_picture h, Option.some_or]

/-! ### Where the statements are put -/

theorem appendTo_last {elements : List Element} {parent : Element} (h : parent ∉ elements)
    (children : List Element) :
    appendTo parent children (elements ++ [parent]) = elements ++ parent :: children := by
  induction elements with
  | nil => simp [appendTo]
  | cons e elements ih =>
    rw [List.mem_cons, not_or] at h
    rw [List.cons_append, appendTo, if_neg (Ne.symm h.1), ih h.2, List.cons_append]

/-- Statements that are put into their pane come last. -/
theorem shownElements_of_textPane
    (h : elementById (loadedElements pictures) "text-pane" = some .textPane) :
    shownElements pictures flows = allElements pictures flows := by
  have hno : Element.textPane ∉ Element.svgPane :: pictures.map Element.picture := by simp
  rw [shownElements, h]
  show appendTo .textPane (flows.map .statement)
    (.svgPane :: pictures.map .picture ++ [.textPane]) = _
  rw [appendTo_last hno, allElements, loadedElements]
  simp

/-! ### Distinct ids -/

theorem id_allElements (pictures flows : List Text) :
    (allElements pictures flows).map Element.id = ofString "svg-pane" ::
      (pictures ++ ofString "text-pane" :: flows.map (ofString "text-" ++ ·)) := by
  simp [allElements, loadedElements, Element.id, Function.comp_def]

/-- A statement has the id of the pane for statements only if its flow is called pane. -/
theorem textPane_not_mem (hpane : ofString "pane" ∉ flows) :
    ofString "text-pane" ∉ flows.map (ofString "text-" ++ ·) := by
  intro h
  obtain ⟨flow, hflow, he⟩ := List.mem_map.mp h
  have hsplit : ofString "text-pane" = ofString "text-" ++ ofString "pane" := rfl
  rw [hsplit] at he
  exact hpane (List.append_cancel_left he ▸ hflow)

theorem svgPane_not_mem (flows : List Text) :
    ofString "svg-pane" ∉ flows.map (ofString "text-" ++ ·) := by
  intro h
  obtain ⟨flow, _, he⟩ := List.mem_map.mp h
  have hfirst : (CodePoint.ofChar 't') = CodePoint.ofChar 's' := (List.cons.inj he).1
  revert hfirst
  decide

/-- Pictures are the only elements whose ids can be taken already. -/
theorem nodup_id_allElements_iff (hp : pictures.Nodup) (hf : flows.Nodup)
    (hpane : ofString "pane" ∉ flows) :
    ((allElements pictures flows).map Element.id).Nodup ↔ ¬ Clashes pictures flows := by
  have hstatements : (flows.map (ofString "text-" ++ ·)).Nodup :=
    hf.map fun _ _ => List.append_cancel_left
  have hpanes : ofString "svg-pane" ≠ ofString "text-pane" := by decide
  rw [id_allElements, List.nodup_cons, List.nodup_append', List.nodup_cons, List.mem_append,
    List.mem_cons, List.disjoint_cons_right, Clashes]
  constructor
  · rintro ⟨hsvg, _, _, htext, hdisjoint⟩ (hc | hc | ⟨flow, hflow, hc⟩)
    · exact hsvg (.inl hc)
    · exact htext hc
    · exact hdisjoint hc (List.mem_map_of_mem hflow)
  · intro hc
    rw [not_or, not_or] at hc
    obtain ⟨hsvg, htext, hstatement⟩ := hc
    refine ⟨?_, hp, ⟨textPane_not_mem hpane, hstatements⟩, htext, ?_⟩
    · rintro (h | h | h)
      · exact hsvg h
      · exact hpanes h
      · exact svgPane_not_mem flows h
    · intro root hroot h
      obtain ⟨flow, hflow, rfl⟩ := List.mem_map.mp h
      exact hstatement ⟨flow, hflow, hroot⟩

/-! ### Lookups -/

/-- The lookups of the player find what they are for if no name clashes. -/
theorem playerFinds_iff (hp : pictures.Nodup) (hf : flows.Nodup) (hpane : ofString "pane" ∉ flows)
    (hroot : ∀ flow ∈ flows, rootOf flow ∈ pictures)
    (hflow : ∀ root ∈ pictures, ∃ flow ∈ flows, rootOf flow = root) :
    PlayerFinds pictures flows ↔ ¬ Clashes pictures flows := by
  constructor
  · intro h
    have hshown : shownElements pictures flows = allElements pictures flows :=
      shownElements_of_textPane h.textPane
    rintro (hc | hc | ⟨flow, hf, hc⟩)
    · -- The pane stands before the picture.
      obtain ⟨flow, hf, hr⟩ := hflow _ hc
      have hfound := h.picture flow hf
      rw [hshown, hr] at hfound
      cases hfound
    · -- The picture stands before the pane.
      have hfound := h.textPane
      rw [loadedElements, elementById_picture hc (by decide)] at hfound
      cases hfound
    · -- The picture stands before the statement.
      have hfound := h.statement flow hf
      have hne : ofString "text-" ++ flow ≠ ofString "svg-pane" := fun he =>
        svgPane_not_mem flows (he ▸ List.mem_map_of_mem hf)
      rw [hshown, allElements, loadedElements, List.cons_append, List.append_assoc,
        elementById_picture hc hne] at hfound
      cases hfound
  · intro hc
    have hn := (nodup_id_allElements_iff hp hf hpane).mpr hc
    have hloaded : ((loadedElements pictures).map Element.id).Nodup := by
      rw [allElements, List.map_append] at hn
      exact hn.of_append_left
    have htext : elementById (loadedElements pictures) "text-pane" = some .textPane :=
      elementById_id (e := .textPane) hloaded (by simp [loadedElements])
    constructor
    case textPane => exact htext
    case statement =>
      intro flow hf
      rw [shownElements_of_textPane htext]
      exact elementById_id (e := .statement flow) hn (by simp [allElements, hf])
    case picture =>
      intro flow hf
      rw [shownElements_of_textPane htext]
      have hmem : Element.picture (rootOf flow) ∈ allElements pictures flows := by
        simp [allElements, loadedElements, hroot flow hf]
      exact elementById_id hn hmem

end Lookups

/-! ### The page -/

section Pages

variable {w : Workspace} {d : Document} {folder : FolderName} {b : Bundle}

/-- The ids of the flows that the player shows. -/
def Bundle.flowIds (b : Bundle) : List Text := b.document.flows.map (·.id)

/-- The page up to its panes. -/
def Bundle.beforePanes (b : Bundle) (title : Text) : Text :=
  (skeleton.take 18).flatMap (Piece.render (b.fill title))

theorem render_eq_panes (b : Bundle) (title : Text) : b.render title =
    b.beforePanes title ++ (panes b.fragments ++ ("</main>\n<script>\n" ++ b.fromScript)) := by
  have hpieces : skeleton.take 25 = skeleton.take 18 ++ (skeleton.take 25).drop 18 := rfl
  rw [render_eq_append, Bundle.beforeScript, hpieces, List.flatMap_append, Bundle.beforePanes,
    List.append_assoc]
  refine congrArg (b.beforePanes title ++ ·) ?_
  simp only [skeleton, List.take_succ_cons, List.take_zero, List.drop_succ_cons, List.drop_zero,
    List.flatMap_cons, List.flatMap_nil, Piece.render, Bundle.fill, panes]
  simp [Text.ofString]

theorem flowIds_compileDocument (h : (compileDocument w d folder).outcome = .ok b) :
    b.flowIds = d.numbered.map fun x => qualify x.1.id x.2 := by
  obtain ⟨bodies, entries, _, _, rfl⟩ := exists_of_compileDocument h
  rw [Bundle.flowIds, flows_bundle, List.map_map]
  exact List.map_congr_left fun x _ => (shownAs_narrated x.1 x.2).id

theorem id_qualifiedFlows (d : Document) :
    d.qualifiedFlows.map (·.id) = d.numbered.map fun x => qualify x.1.id x.2 := by
  rw [Document.qualifiedFlows, List.map_map]
  rfl

/-- An id that the author gave is that of a pane, or of the statement of a flow. -/
def Document.Clashes (d : Document) : Prop :=
  ∃ f ∈ d.flows, f.id = "svg-pane" ∨ f.id = "text-pane" ∨
    ∃ x ∈ d.numbered, f.id = "text-" ++ qualify x.1.id x.2

instance (d : Document) : Decidable d.Clashes :=
  inferInstanceAs (Decidable (∃ f ∈ d.flows, f.id = "svg-pane" ∨ f.id = "text-pane" ∨
    ∃ x ∈ d.numbered, f.id = "text-" ++ qualify x.1.id x.2))

theorem mem_pictures {root : Text} : root ∈ d.pictures ↔ ∃ f ∈ d.flows, f.id = root := by
  rw [Document.pictures, Text.mem_distinct, List.mem_map]

theorem clashes_flowIds (h : (compileDocument w d folder).outcome = .ok b) :
    Clashes d.pictures b.flowIds ↔ d.Clashes := by
  rw [Clashes, flowIds_compileDocument h]
  simp only [mem_pictures, List.mem_map, Document.Clashes]
  constructor
  · rintro (⟨f, hf, he⟩ | ⟨f, hf, he⟩ | ⟨_, ⟨x, hx, rfl⟩, f, hf, he⟩)
    · exact ⟨f, hf, .inl he⟩
    · exact ⟨f, hf, .inr (.inl he)⟩
    · exact ⟨f, hf, .inr (.inr ⟨x, hx, he⟩)⟩
  · rintro ⟨f, hf, he | he | ⟨x, hx, he⟩⟩
    · exact .inl ⟨f, hf, he⟩
    · exact .inr (.inl ⟨f, hf, he⟩)
    · exact .inr (.inr ⟨_, ⟨x, hx, rfl⟩, f, hf, he⟩)

/-- No flow is called pane, since a qualified id holds a qualifier. -/
theorem pane_ne_qualify (root : Text) (n : Nat) : ofString "pane" ≠ qualify root n := by
  intro h
  have hmem : CodePoint.ofChar '_' ∈ qualify root n := by
    simp [qualify, qualifier, ofString]
  rw [← h] at hmem
  revert hmem
  decide

theorem isFlowId_textId {id : Text} (h : isFlowId id = true) : isFlowId ("text-" ++ id) = true := by
  have hfront : (ofString "text-").all isFlowIdPart = true := by decide
  rw [isFlowId, Bool.and_eq_true] at h ⊢
  exact ⟨by simp [ofString], by rw [List.all_append, hfront, h.2, Bool.true_and]⟩

/-- All ids are made as the ids of flows are: they hold no quote, and a picture can be named like
any other element. -/
theorem isFlowId_id_allElements (hd : d.IsValid)
    (h : (compileDocument w d folder).outcome = .ok b) :
    ∀ e ∈ allElements d.pictures b.flowIds, isFlowId e.id = true := by
  intro e he
  cases e with
  | svgPane => decide
  | textPane => decide
  | picture root =>
    have hroot : root ∈ d.pictures := by simpa [allElements, loadedElements] using he
    exact isFlowId_of_mem_pictures hd hroot
  | statement flow =>
    have hflow : flow ∈ b.flowIds := by simpa [allElements, loadedElements] using he
    rw [flowIds_compileDocument h] at hflow
    obtain ⟨x, hx, rfl⟩ := List.mem_map.mp hflow
    exact isFlowId_textId
      (isFlowId_qualify (hd.id x.1 (List.fst_mem_of_mem_zipIdx hx)) x.2)

/-- The roots that the player takes out of the ids are the ids that the author gave. -/
theorem rootOf_flowIds (h : (compileDocument w d folder).outcome = .ok b) :
    b.flowIds.map rootOf = d.flows.map (·.id) := by
  rw [flowIds_compileDocument h, List.map_map, Document.numbered]
  simp only [Function.comp_def, rootOf_qualify]
  conv_rhs => rw [← List.zipIdx_map_fst 1 d.flows, List.map_map]
  rfl

/-- Each flow has its picture, and each picture a flow. -/
theorem mem_pictures_iff (h : (compileDocument w d folder).outcome = .ok b) {root : Text} :
    root ∈ d.pictures ↔ ∃ flow ∈ b.flowIds, rootOf flow = root := by
  rw [Document.pictures, Text.mem_distinct, ← rootOf_flowIds h, List.mem_map]

/-- **The ids of the panes, the pictures and the statements are distinct, and each lookup of the
player finds what it is for**, exactly if no picture is named like a pane or a statement. -/
theorem lookups_unambiguous_iff (hd : d.IsValid)
    (h : (compileDocument w d folder).outcome = .ok b) (title : Text) :
    (∃ bodies, List.Forall₂ (HasBody w folder.path) d.pictures bodies ∧
      b.fragments = join "\n\n" (List.zipWith wrapBody d.pictures bodies) ∧
      b.render title =
        b.beforePanes title ++ (panes b.fragments ++ ("</main>\n<script>\n" ++ b.fromScript))) ∧
    (∀ e ∈ allElements d.pictures b.flowIds, isFlowId e.id = true) ∧
    (((allElements d.pictures b.flowIds).map Element.id).Nodup ↔ ¬ d.Clashes) ∧
    (PlayerFinds d.pictures b.flowIds ↔ ¬ d.Clashes) := by
  have hflows : b.flowIds.Nodup := by
    rw [flowIds_compileDocument h, ← id_qualifiedFlows]
    exact nodup_id_qualifiedFlows d
  have hpane : ofString "pane" ∉ b.flowIds := by
    rw [flowIds_compileDocument h]
    intro hmem
    obtain ⟨x, _, hx⟩ := List.mem_map.mp hmem
    exact pane_ne_qualify x.1.id x.2 hx.symm
  refine ⟨?_, isFlowId_id_allElements hd h, ?_, ?_⟩
  · obtain ⟨bodies, _, hbodies, _, hb⟩ := exists_of_compileDocument h
    exact ⟨bodies, hbodies, by rw [hb]; rfl, render_eq_panes b title⟩
  · rw [← clashes_flowIds h]
    exact nodup_id_allElements_iff (nodup_pictures d) hflows hpane
  · rw [← clashes_flowIds h]
    exact playerFinds_iff (nodup_pictures d) hflows hpane
      (fun flow hflow => (mem_pictures_iff h).mpr ⟨flow, hflow, rfl⟩)
      (fun root hroot => (mem_pictures_iff h).mp hroot)

end Pages

theorem lookups_unambiguous_iff_talk : talk.IsValid ∧
    ∃ b, (compileDocument talkFolder talk (.ofText "talk")).outcome = .ok b ∧ ¬ talk.Clashes ∧
      ((allElements talk.pictures b.flowIds).map Element.id).Nodup ∧
      PlayerFinds talk.pictures b.flowIds := by
  obtain ⟨b, hb⟩ := exists_of_isOk talk_compiles
  have hno : ¬ talk.Clashes := by decide +kernel
  obtain ⟨_, _, hids, hfinds⟩ := lookups_unambiguous_iff talk_isValid hb []
  exact ⟨talk_isValid, b, hb, hno, hids.mpr hno, hfinds.mpr hno⟩

/-- A talk whose only picture has the name of a pane. -/
def paneTalk : Document where
  settings := talk.settings
  sections := [⟨[⟨"text-pane", "One.", .zero false, none, none, none⟩], none⟩]

def paneFolder : Workspace where
  entries := [(["talk"], .folder), (["talk", "text-pane.svg"], fileOf "<svg></svg>")]
  current := []

/-- The player finds the picture instead of the pane, and puts the statement into it. -/
theorem paneTalk_ambiguous : paneTalk.IsValid ∧
    ∃ b, (compileDocument paneFolder paneTalk (.ofText "talk")).outcome = .ok b ∧
      ¬ ((allElements paneTalk.pictures b.flowIds).map Element.id).Nodup ∧
      elementById (loadedElements paneTalk.pictures) "text-pane" = some (.picture "text-pane") ∧
      shownElements paneTalk.pictures b.flowIds =
        [.svgPane, .picture "text-pane", .statement "text-pane__1", .textPane] := by
  have hvalid : paneTalk.IsValid := ⟨⟨by decide, by decide, by decide, by decide⟩, by decide⟩
  have hok : (compileDocument paneFolder paneTalk (.ofText "talk")).outcome.isOk = true := by
    decide +kernel
  obtain ⟨b, hb⟩ := exists_of_isOk hok
  refine ⟨hvalid, b, hb, ?_, by decide +kernel, ?_⟩
  · rw [flowIds_compileDocument hb]
    decide +kernel
  · rw [flowIds_compileDocument hb]
    decide +kernel

end SvgDeck
