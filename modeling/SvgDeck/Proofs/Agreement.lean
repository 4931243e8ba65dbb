/-
The command that checks a document agrees with the build of its folder.

Both load the document and compile its directives, flow by flow; the build asks for the
pictures in between.  So where the pictures can be used both end in the same way
(`compileFolder_eq_error_of_usable`), with one report, and a build that compiles is a
check that passes, whatever is asked of the pictures (`countDocument_of_compiles`).  What
the command counts is what the page is made of.

There is one exception.  A build looks up all that stands in the folder, and stops at a path
that is too long; the command looks up the document only.  `check_agrees_iff` says that there
is no other, and `crowdedTalk` is a folder where the two disagree.
-/
import SvgDeck.CommandLine.Check
import SvgDeck.Proofs.Commands
import SvgDeck.Proofs.Escape

namespace SvgDeck

namespace CommandLine

variable {w : Workspace} {folder path : Path} {d : Document} {f : Failure}

/-! ### Counting -/

/-- What there is to count in a document. -/
def documentCounts (d : Document) : Counts where
  sections := d.sections.length
  flows := d.flows.length
  assets := d.pictures.length
  animations := (d.flows.filter Flow.hasDirective).length

/-- The directives of all flows compile. -/
def DirectivesCompile (d : Document) : Prop :=
  ∃ entries, d.qualifiedFlows.mapM Flow.animationEntry = .ok entries

theorem length_qualified (d : Document) : d.qualified.length = d.flows.length := by
  rw [← flow_flowRefs, List.length_map, Document.qualified, List.length_mapIdx]

/-- There is one animation for each flow with a directive. -/
theorem length_animations {numbered : List (Flow × Nat)} {animations : Animations}
    (h : List.Forall₂ (fun x entry => AnimatedAs x.1 x.2 entry)
      (numbered.filter (·.1.hasDirective)) animations) :
    animations.length = ((numbered.map Prod.fst).filter Flow.hasDirective).length := by
  rw [← h.length_eq, List.filter_map, List.length_map]
  rfl

theorem length_entries {entries : List (Option (Text × Animation))}
    (h : d.qualifiedFlows.mapM Flow.animationEntry = .ok entries) :
    (entries.filterMap id).length = (d.flows.filter Flow.hasDirective).length := by
  have hanim := mapM_eq_ok.mp h
  rw [Document.qualifiedFlows, List.forall₂_map_left_iff] at hanim
  rw [length_animations (forall₂_animatedAs hanim), Document.numbered, List.zipIdx_map_fst]

section Counting

variable [DataReader]

theorem outcome_countDocument (w : Workspace) (path : Path) :
    (countDocument w path).outcome = (do
      let d ← (loadDocument w path).outcome
      let _ ← d.qualifiedFlows.mapM Flow.animationEntry
      return documentCounts d) := by
  simp only [countDocument, assignIds, Run.outcome_bind, Run.outcome_write, Run.outcome_pure,
    ok_bind, roots_qualified, length_qualified, outcome_compileAnimations_qualified]
  refine congrArg _ (funext fun d => ?_)
  cases hentries : d.qualifiedFlows.mapM Flow.animationEntry with
  | error e => rfl
  | ok entries =>
    rw [Except.map, ok_bind, ok_bind, documentCounts, ← length_entries hentries]
    rfl

theorem countDocument_eq_ok {c : Counts} :
    (countDocument w path).outcome = .ok c ↔ ∃ d, (loadDocument w path).outcome = .ok d ∧
      DirectivesCompile d ∧ c = documentCounts d := by
  simp only [outcome_countDocument, bind_eq_ok, DirectivesCompile, pure_eq_ok, Except.ok.injEq]
  constructor
  · rintro ⟨d, hload, entries, hentries, rfl⟩
    exact ⟨d, hload, ⟨entries, hentries⟩, rfl⟩
  · rintro ⟨d, hload, ⟨entries, hentries⟩, rfl⟩
    exact ⟨d, hload, entries, hentries, rfl⟩

theorem countDocument_eq_error :
    (countDocument w path).outcome = .error f ↔ (loadDocument w path).outcome = .error f ∨
      ∃ d, (loadDocument w path).outcome = .ok d ∧
        d.qualifiedFlows.mapM Flow.animationEntry = .error f := by
  simp [outcome_countDocument, bind_eq_error]

end Counting

/-! ### The same passes in a build -/

theorem allUsable_iff :
    AllUsable w folder d ↔ d.pictures.all (fun root => (fragment w folder root).isOk) = true := by
  rw [List.all_eq_true]
  refine forall₂_congr fun root _ => ⟨?_, fun h => ?_⟩
  · rintro ⟨body, hbody⟩
    rw [fragment_eq_ok.mpr ⟨body, hbody, rfl⟩]
    rfl
  · obtain ⟨x, hx⟩ := exists_of_isOk h
    obtain ⟨body, hbody, _⟩ := fragment_eq_ok.mp hx
    exact ⟨body, hbody⟩

instance : Decidable (AllUsable w folder d) := decidable_of_iff _ allUsable_iff.symm

section Passes

variable [DataReader]

/-- The pictures of the document at a path are files with a body, if there is a document. -/
def PicturesUsable (w : Workspace) (folder path : Path) : Prop :=
  ∀ d, (loadDocument w path).outcome = .ok d → AllUsable w folder d

instance : Decidable (PicturesUsable w folder path) :=
  match h : (loadDocument w path).outcome with
  | .ok d => decidable_of_iff (AllUsable w folder d) (by simp [PicturesUsable, h])
  | .error e => isTrue (by simp [PicturesUsable, h])

theorem outcome_compileFolder (hfind : (findDocument w folder).outcome = .ok path) :
    (compileFolder w folder).outcome = (do
      let d ← (loadDocument w path).outcome
      let b ← (compileDocument w d (.ofPath folder)).outcome
      return (path, b)) := by
  obtain ⟨_, name, _, rfl⟩ := findDocument_eq_ok.mp hfind
  simp only [compileFolder, Run.outcome_bind, hfind, ok_bind, Path.parent_child,
    Run.outcome_pure, pure_eq_ok]

/-- Whatever is asked of the pictures, a slideshow that compiles has directives that compile. -/
theorem countDocument_of_compiles (hfind : (findDocument w folder).outcome = .ok path)
    {r : Path × Bundle} (h : (compileFolder w folder).outcome = .ok r) :
    ∃ c, (countDocument w path).outcome = .ok c := by
  rw [outcome_compileFolder hfind] at h
  obtain ⟨d, hload, h⟩ := bind_eq_ok.mp h
  obtain ⟨b, hcompile, _⟩ := bind_eq_ok.mp h
  obtain ⟨_, entries, _, hentries, _⟩ := exists_of_compileDocument hcompile
  refine ⟨_, countDocument_eq_ok.mpr ⟨d, hload, ⟨entries, mapM_eq_ok.mpr ?_⟩, rfl⟩⟩
  rwa [Document.qualifiedFlows, List.forall₂_map_left_iff]

/-- Where the pictures can be used, only loading and directives can fail, in both cases. -/
theorem compileFolder_eq_error_of_usable (hfind : (findDocument w folder).outcome = .ok path)
    (hu : PicturesUsable w folder path) :
    (compileFolder w folder).outcome = .error f ↔ (countDocument w path).outcome = .error f := by
  rw [outcome_compileFolder hfind, countDocument_eq_error, bind_eq_error]
  refine or_congr Iff.rfl (exists_congr fun d => and_congr_right fun hload => ?_)
  have husable : AllUsable w (FolderName.ofPath folder).path d := hu d hload
  obtain ⟨x, hx⟩ := outcome_of_allUsable husable
  rw [hx]
  simp [bind_eq_error]

theorem compileFolder_isOk_iff_of_usable (hfind : (findDocument w folder).outcome = .ok path)
    (hu : PicturesUsable w folder path) :
    (∃ r, (compileFolder w folder).outcome = .ok r) ↔
      ∃ c, (countDocument w path).outcome = .ok c := by
  rw [← not_fails, ← not_fails]
  exact not_congr (exists_congr fun f => compileFolder_eq_error_of_usable hfind hu)

end Passes

/-! ### The command -/

/-- The output for a document that passed. -/
def passedOutput (path : Path) (c : Counts) : Output :=
  ⟨0, "Validation PASSED: " ++ path.text ++ "\n" ++ c.text, []⟩

/-- The output for a document that failed for a cause. -/
def failedOutput (path : Path) (cause : Cause) : Output :=
  ⟨1, [], "Validation FAILED: " ++ path.text ++ "\n  Error: " ++ cause.report.text ++ "\n"⟩

/-- How the command ends after counting. -/
def conclusion (path : Path) : Except Failure Counts → Except Failure Output
  | .ok c => .ok (passedOutput path c)
  | .error (.reported cause) => .ok (failedOutput path cause)
  | .error f => .error f

theorem conclusion_zero_iff {x : Except Failure Counts} {o : Output} :
    conclusion path x = .ok o ∧ o.code = 0 ↔ ∃ c, x = .ok c ∧ o = passedOutput path c := by
  constructor
  · rintro ⟨h, hcode⟩
    cases x with
    | ok c => exact ⟨c, rfl, (Except.ok.inj h).symm⟩
    | error f =>
      cases f with
      | reported cause =>
        rw [← Except.ok.inj h] at hcode
        cases hcode
      | _ => cases h
  · rintro ⟨c, rfl, rfl⟩
    exact ⟨rfl, rfl⟩

theorem conclusion_one_iff {x : Except Failure Counts} {o : Output} :
    conclusion path x = .ok o ∧ o.code = 1 ↔
      ∃ cause, x = .error (.reported cause) ∧ o = failedOutput path cause := by
  constructor
  · rintro ⟨h, hcode⟩
    cases x with
    | ok c =>
      rw [← Except.ok.inj h] at hcode
      cases hcode
    | error f =>
      cases f with
      | reported cause => exact ⟨cause, rfl, (Except.ok.inj h).symm⟩
      | _ => cases h
  · rintro ⟨cause, rfl, rfl⟩
    exact ⟨rfl, rfl⟩

theorem code_of_conclusion {x : Except Failure Counts} {o : Output}
    (h : conclusion path x = .ok o) : o.code = 0 ∨ o.code = 1 := by
  cases x with
  | ok c =>
    rw [← Except.ok.inj h]
    exact Or.inl rfl
  | error f =>
    cases f with
    | reported cause =>
      rw [← Except.ok.inj h]
      exact Or.inr rfl
    | _ => cases h

section Command

variable [DataReader]

/-- An argument without a dash in front names the document. -/
theorem check_of_operand {argument : Text} (hdash : argument.head? ≠ some dash) :
    check w [argument] = checkDocument w (.ofText argument) := by
  have hdivider : argument ≠ [dash, dash] := by
    rintro rfl
    exact hdash rfl
  have hshapes : shapes checkCommand.choices [argument] = .ok [(argument, .operand)] := by
    simp only [shapes, if_neg hdivider, shapeOf, if_pos hdash]
    rfl
  have hstart : start checkCommand [argument] = .ok [.operand argument] := by
    rw [start, readArguments, hshapes]
    rfl
  rw [check, hstart]
  rfl

/-- Something stands at the path, or the path is too long to be looked up: then the command ends as
counting does. -/
theorem checkDocument_eq (h : w.Refuses path ∨ w.stands path = true) :
    checkDocument w path = conclusion path (countDocument w path).outcome := by
  rcases h with hr | hs
  · have hcount := countDocument_eq_error.mpr (Or.inl (loadDocument_eq_error.mpr (Or.inl ⟨hr, rfl⟩)))
    rw [checkDocument, Workspace.exists?_eq_error.mpr ⟨hr, rfl⟩, hcount]
    rfl
  · obtain ⟨e, he⟩ := Workspace.stands_eq_true.mp hs
    have hr : ¬ w.Refuses path := by simp [Workspace.Refuses, he]
    rw [checkDocument, Workspace.exists?_eq_ok.mpr ⟨hr, hs.symm⟩, ok_bind]
    cases hcount : (countDocument w path).outcome with
    | ok c => rfl
    | error f => cases f <;> rfl

end Command

/-! ### What is on the page -/

/-- A page has as many sections, flows, pictures and animations as were counted in its document. -/
structure CountedOnPage (w : Workspace) (folder : Path) (d : Document) (c : Counts) (b : Bundle) :
    Prop where
  sections : b.document.sections.length = c.sections
  flows : b.document.flows.length = c.flows
  fragments : ∃ bodies, List.Forall₂ (HasBody w folder) d.pictures bodies ∧
    b.fragments = Text.join "\n\n" (List.zipWith wrapBody d.pictures bodies) ∧
    (List.zipWith wrapBody d.pictures bodies).length = c.assets
  animations : ∃ animations : Animations, b.mapping = animations.mapping ∧
    (animations.map (·.1)).Nodup ∧ animations.length = c.animations

theorem length_sections_of_shape {d d' : Document} (h : d.shape = d'.shape) :
    d.sections.length = d'.sections.length := by
  simpa [Document.shape] using congrArg List.length h

/-- No two animations belong to one flow. -/
theorem nodup_animations {animations : Animations}
    (h : List.Forall₂ (fun x entry => AnimatedAs x.1 x.2 entry)
      (d.numbered.filter (·.1.hasDirective)) animations) : (animations.map (·.1)).Nodup := by
  have hkeys : animations.map (·.1) =
      (d.numbered.filter (·.1.hasDirective)).map fun x => (x.1.qualifiedAt x.2).id := by
    generalize d.numbered.filter (·.1.hasDirective) = numbered at h
    induction h with
    | nil => rfl
    | cons hx _ ih => rw [List.map_cons, List.map_cons, ih, hx.id]; rfl
  have hn := nodup_id_qualifiedFlows d
  rw [Document.qualifiedFlows, List.map_map] at hn
  rw [hkeys]
  exact hn.sublist (List.filter_sublist.map _)

theorem countedOnPage_of_compileDocument {b : Bundle}
    (h : (compileDocument w d (.ofPath folder)).outcome = .ok b) :
    CountedOnPage w folder d (documentCounts d) b := by
  obtain ⟨bodies, entries, hbodies, hentries, rfl⟩ := exists_of_compileDocument h
  have hanim := forall₂_animatedAs hentries
  constructor
  case sections => exact length_sections_of_shape (shape_rebuild d _)
  case flows => rw [flows_bundle, List.length_map, Document.numbered, List.length_zipIdx]; rfl
  case fragments =>
    refine ⟨bodies, hbodies, rfl, ?_⟩
    rw [List.length_zipWith, ← hbodies.length_eq, Nat.min_self]
    rfl
  case animations =>
    refine ⟨_, rfl, nodup_animations hanim, ?_⟩
    rw [length_animations hanim, Document.numbered, List.zipIdx_map_fst]
    rfl

/-! ### Agreement -/

section Agreement

variable [DataReader]

/-- The command, whose result is given, ends at the document of a folder as compiling the folder
does.  What it counts is in the document, and on the page if there is one. -/
structure AgreesWithBuild (w : Workspace) (folder path : Path) (result : Except Failure Output) :
    Prop where
  passes : (∃ r, (compileFolder w folder).outcome = .ok r) → ∃ o, result = .ok o ∧ o.code = 0
  passes_iff : PicturesUsable w folder path →
    ((∃ o, result = .ok o ∧ o.code = 0) ↔ ∃ r, (compileFolder w folder).outcome = .ok r)
  fails_iff : PicturesUsable w folder path → ((∃ o, result = .ok o ∧ o.code = 1) ↔
    ∃ cause, (compileFolder w folder).outcome = .error (.reported cause))
  report : PicturesUsable w folder path → ∀ cause,
    (compileFolder w folder).outcome = .error (.reported cause) →
      result = .ok (failedOutput path cause)
  counts : ∀ o, result = .ok o → o.code = 0 → ∃ d, (loadDocument w path).outcome = .ok d ∧
    o = passedOutput path (documentCounts d) ∧
    ∀ b, (compileFolder w folder).outcome = .ok (path, b) →
      CountedOnPage w folder d (documentCounts d) b

/-- What passes was loaded, and the page of a slideshow that compiles has what was counted. -/
theorem counted_of_conclusion {o : Output} (h : conclusion path (countDocument w path).outcome = .ok o)
    (hcode : o.code = 0) : ∃ d, (loadDocument w path).outcome = .ok d ∧
      o = passedOutput path (documentCounts d) ∧
      ∀ b, (compileFolder w folder).outcome = .ok (path, b) →
        CountedOnPage w folder d (documentCounts d) b := by
  obtain ⟨c, hc, rfl⟩ := conclusion_zero_iff.mp ⟨h, hcode⟩
  obtain ⟨d, hload, _, rfl⟩ := countDocument_eq_ok.mp hc
  refine ⟨d, hload, rfl, fun b hb => ?_⟩
  obtain ⟨name, d', hcompiles, rfl⟩ := compileFolder_eq_ok.mp hb
  obtain rfl : d = d' := Except.ok.inj (hload.symm.trans hcompiles.loaded)
  exact countedOnPage_of_compileDocument hcompiles.compiled

/-- The two agree once the document is found. -/
theorem agreesWithBuild_of_find (hfind : (findDocument w folder).outcome = .ok path) :
    AgreesWithBuild w folder path (conclusion path (countDocument w path).outcome) := by
  constructor
  case passes =>
    rintro ⟨r, hr⟩
    obtain ⟨c, hc⟩ := countDocument_of_compiles hfind hr
    exact ⟨_, conclusion_zero_iff.mpr ⟨c, hc, rfl⟩⟩
  case passes_iff =>
    intro hu
    simp only [conclusion_zero_iff, compileFolder_isOk_iff_of_usable hfind hu]
    exact ⟨fun ⟨_, c, hc, _⟩ => ⟨c, hc⟩, fun ⟨c, hc⟩ => ⟨_, c, hc, rfl⟩⟩
  case fails_iff =>
    intro hu
    simp only [conclusion_one_iff, compileFolder_eq_error_of_usable hfind hu]
    exact ⟨fun ⟨_, cause, hc, _⟩ => ⟨cause, hc⟩, fun ⟨cause, hc⟩ => ⟨_, cause, hc, rfl⟩⟩
  case report =>
    intro hu cause hcause
    rw [(compileFolder_eq_error_of_usable hfind hu).mp hcause]
    rfl
  case counts => exact fun _ => counted_of_conclusion

/-- A build that ends without a report, before anything is loaded, agrees with no end of the
command. -/
theorem agreesWithBuild_iff_of_escapes (hf : (compileFolder w folder).outcome = .error f)
    (hne : f.isReported = false) :
    AgreesWithBuild w folder path (conclusion path (countDocument w path).outcome) ↔
      ¬ (PicturesUsable w folder path ∧
        ∃ o, conclusion path (countDocument w path).outcome = .ok o) := by
  have hresult : ¬ ∃ r, (compileFolder w folder).outcome = .ok r := by
    rintro ⟨r, hr⟩
    rw [hf] at hr
    cases hr
  have hreport : ∀ cause, (compileFolder w folder).outcome ≠ .error (.reported cause) := by
    intro cause hcause
    rw [hf] at hcause
    cases hcause
    cases hne
  constructor
  · rintro h ⟨hu, o, ho⟩
    rcases code_of_conclusion ho with hcode | hcode
    · exact hresult ((h.passes_iff hu).mp ⟨o, ho, hcode⟩)
    · obtain ⟨cause, hcause⟩ := (h.fails_iff hu).mp ⟨o, ho, hcode⟩
      exact hreport cause hcause
  · intro h
    constructor
    case passes => exact fun hr => absurd hr hresult
    case passes_iff =>
      exact fun hu => iff_of_false (fun ⟨o, ho, _⟩ => h ⟨hu, o, ho⟩) hresult
    case fails_iff =>
      exact fun hu => iff_of_false (fun ⟨o, ho, _⟩ => h ⟨hu, o, ho⟩)
        fun ⟨cause, hcause⟩ => hreport cause hcause
    case report => exact fun _ cause hcause => absurd hcause (hreport cause)
    case counts => exact fun _ => counted_of_conclusion

end Agreement

/-! ### Folders with one document -/

/-- Whether a document stands in a folder under a name. -/
def hasDocument (w : Workspace) (base : Location) (name : Text) : Bool :=
  isDocumentName name &&
    match w.entryAt? (base ++ [Name.ofText name]) with
    | some (.file _) => true
    | _ => false

/-- A folder, found by its path, holds one document. -/
structure HoldsDocument (w : Workspace) (folder : Path) (base : Location) (name : Text) : Prop where
  leads : w.locate folder = .ok base
  folder : w.entryAt? base = some .folder
  only : (w.namesIn base).filter (hasDocument w base) = [name]

section HoldsDocument

variable {base : Location} {name n : Text}

theorem isDocumentName_ne_above (h : isDocumentName n = true) : n ≠ Path.above := by
  rintro rfl
  revert h
  decide

/-- A name with a path that can be looked up is a document's in either view. -/
theorem hasDocument_eq (hl : w.locate folder = .ok base) (hf : w.entryAt? base = some .folder)
    (hname : n.IsName) (hr : ¬ w.Refuses (folder.child n)) :
    hasDocument w base n = (w.standsFile (folder.child n) && isDocumentName n) := by
  rw [hasDocument, Bool.and_comm]
  cases hn : isDocumentName n with
  | false => simp
  | true =>
    have hlocate :=
      Workspace.locate_child_of_not_refuses hl hf hname (isDocumentName_ne_above hn) hr
    rw [Workspace.standsFile, Workspace.entry, hlocate, ok_bind]
    cases w.entryAt? (base ++ [Name.ofText n]) with
    | none => rfl
    | some e => cases e <;> rfl

theorem HoldsDocument.entry (h : HoldsDocument w folder base name) :
    w.entry folder = .ok .folder := Workspace.entry_eq_ok.mpr ⟨base, h.leads, h.folder⟩

theorem HoldsDocument.mem (h : HoldsDocument w folder base name) :
    name ∈ w.names folder ∧ hasDocument w base name = true := by
  have hmem : name ∈ (w.namesIn base).filter (hasDocument w base) := by
    rw [h.only]
    exact List.mem_singleton_self name
  rw [Workspace.names_of_locate h.leads]
  exact List.mem_filter.mp hmem

/-- The document of a folder is there, unless its path is too long to be looked up. -/
theorem HoldsDocument.stands (h : HoldsDocument w folder base name) :
    w.Refuses (folder.child name) ∨ w.stands (folder.child name) = true := by
  by_cases hr : w.Refuses (folder.child name)
  · exact Or.inl hr
  · obtain ⟨hmem, hdocument⟩ := h.mem
    rw [hasDocument_eq h.leads h.folder (Workspace.isName_of_mem_names hmem) hr,
      Bool.and_eq_true, Workspace.standsFile_eq_true] at hdocument
    obtain ⟨⟨bytes, hfile⟩, _⟩ := hdocument
    exact Or.inr (Workspace.stands_eq_true.mpr ⟨_, hfile⟩)

/-- The document is found if everything in the folder can be looked up. -/
theorem HoldsDocument.findDocument (h : HoldsDocument w folder base name)
    (hr : ¬ RefusesEntry w folder) :
    (findDocument w folder).outcome = .ok (folder.child name) := by
  have hnames := Workspace.names_of_locate h.leads
  have hfilter : ((w.names folder).filter fun n => w.standsFile (folder.child n)).filter
      isDocumentName = [name] := by
    rw [List.filter_filter, ← h.only, hnames]
    refine List.filter_congr fun n hn => ?_
    have hn : n ∈ w.names folder := hnames ▸ hn
    rw [Bool.and_comm, hasDocument_eq h.leads h.folder (Workspace.isName_of_mem_names hn)
      fun hrn => hr ⟨n, hn, hrn⟩]
  refine findDocument_eq_ok.mpr ⟨h.entry, name, ?_, rfl⟩
  rw [documentNames_eq_ok, hfilter, List.mergeSort_singleton]
  exact ⟨hr, rfl⟩

/-- The path in print is a spelling of the path, if its name can be that of a file. -/
theorem HoldsDocument.ofText_text {t : Text} (h : HoldsDocument w (.ofText t) base name)
    (hslash : CodePoint.ofChar '/' ∉ name) :
    Path.ofText ((Path.ofText t).child name).text = (Path.ofText t).child name := by
  have hdocument := (Bool.and_eq_true_iff.mp h.mem.2).1
  refine Path.ofText_text ((Path.isRead_ofText t).child ⟨?_, ?_, hslash⟩)
  · rintro rfl
    revert hdocument
    decide
  · rintro rfl
    revert hdocument
    decide

end HoldsDocument

/-- **Checking a document and building its folder agree**, for any spelling of the document's path
that is not taken for an option, unless the build ends at something else in the folder, whose path
is too long, and the command does not. -/
theorem check_agrees_iff [DataReader] {base : Location} {name argument : Text}
    (holds : HoldsDocument w folder base name) (hpath : Path.ofText argument = folder.child name)
    (hdash : argument.head? ≠ some dash) :
    AgreesWithBuild w folder (folder.child name) (check w [argument]) ↔
      ¬ (RefusesEntry w folder ∧ PicturesUsable w folder (folder.child name) ∧
        ∃ o, check w [argument] = .ok o) := by
  rw [check_of_operand hdash, hpath, checkDocument_eq holds.stands]
  by_cases hr : RefusesEntry w folder
  · obtain ⟨p, hp⟩ := compileFolder_of_refusesEntry holds.entry hr
    rw [agreesWithBuild_iff_of_escapes hp rfl, and_iff_right hr]
  · exact iff_of_true (agreesWithBuild_of_find (holds.findDocument hr)) fun h => hr h.1

/-- A talk whose only flow has a focus that ends before it starts. -/
def backwardTalk : Workspace := talkWith "One.\n    focus: 0,0,1,1 2 1"

/-- The picture of the talk can be used, so the fault of its focus is what both report. -/
theorem check_agrees_iff_backwardTalk :
    HoldsDocument backwardTalk (.ofText "talk") ["talk"] "talk.yml" ∧
      Path.ofText (Text.ofString "talk/talk.yml") = (Path.ofText "talk").child "talk.yml" ∧
      (Text.ofString "talk/talk.yml").head? ≠ some dash ∧
      PicturesUsable backwardTalk (.ofText "talk") ((Path.ofText "talk").child "talk.yml") ∧
      AgreesWithBuild backwardTalk (.ofText "talk") ((Path.ofText "talk").child "talk.yml")
        (check backwardTalk ["talk/talk.yml"]) := by
  have holds : HoldsDocument backwardTalk (.ofText "talk") ["talk"] "talk.yml" :=
    ⟨by decide +kernel, by decide +kernel, by decide +kernel⟩
  have hpath : Path.ofText (Text.ofString "talk/talk.yml") =
      (Path.ofText "talk").child "talk.yml" := by
    decide +kernel
  have hdash : (Text.ofString "talk/talk.yml").head? ≠ some dash := by decide
  have hentry : ¬ RefusesEntry backwardTalk (.ofText "talk") := by decide +kernel
  refine ⟨holds, hpath, hdash, by decide +kernel, ?_⟩
  exact (check_agrees_iff holds hpath hdash).mpr fun h => hentry h.1

/-- A name of 248 bytes. -/
def longName : Text := List.replicate 62 (CodePoint.ofChar (Char.ofNat 0x1D465))

/-- A talk whose folder also holds a file with a long name, beside a folder of that name. -/
def crowdedTalk : Workspace :=
  (plainTalk.put [longName] .folder).put [Text.ofString "talk", longName] (fileOf "")

/-- A path to the folder of the talk, so long that none to the file with the long name is left. -/
def detour : Path := .ofText ((List.replicate 16 (longName ++ "/../")).flatten ++ "talk")

theorem crowdedTalk_holds : HoldsDocument crowdedTalk detour ["talk"] "talk.yml" :=
  ⟨by decide +kernel, by decide +kernel, by decide +kernel⟩

/-- The command passes, and the build is stopped by a file that is no part of the slideshow. -/
theorem crowdedTalk_not_agrees :
    HoldsDocument crowdedTalk detour ["talk"] "talk.yml" ∧
      Path.ofText (detour.child "talk.yml").text = detour.child "talk.yml" ∧
      (detour.child "talk.yml").text.head? ≠ some dash ∧
      PicturesUsable crowdedTalk detour (detour.child "talk.yml") ∧
      ¬ AgreesWithBuild crowdedTalk detour (detour.child "talk.yml")
        (check crowdedTalk [(detour.child "talk.yml").text]) := by
  have hpath : Path.ofText (detour.child "talk.yml").text = detour.child "talk.yml" :=
    crowdedTalk_holds.ofText_text (by decide)
  have hdash : (detour.child "talk.yml").text.head? ≠ some dash := by decide +kernel
  have husable : PicturesUsable crowdedTalk detour (detour.child "talk.yml") := by decide +kernel
  refine ⟨crowdedTalk_holds, hpath, hdash, husable, fun h => ?_⟩
  have hcount : (countDocument crowdedTalk (detour.child "talk.yml")).outcome.isOk = true := by
    decide +kernel
  obtain ⟨c, hc⟩ := exists_of_isOk hcount
  have hcheck : check crowdedTalk [(detour.child "talk.yml").text] =
      .ok (passedOutput (detour.child "talk.yml") c) := by
    rw [check_of_operand hdash, hpath, checkDocument_eq crowdedTalk_holds.stands, hc]
    rfl
  obtain ⟨r, hr⟩ := (h.passes_iff husable).mp ⟨_, hcheck, rfl⟩
  obtain ⟨p, hp⟩ := compileFolder_of_refusesEntry crowdedTalk_holds.entry (by decide +kernel)
  rw [hp] at hr
  cases hr

end CommandLine

end SvgDeck
