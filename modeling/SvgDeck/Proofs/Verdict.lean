/-
How compiling ends.

Five lemmas, from `outcome_of_lost` to `outcome_of_compiles`, say how a document ends that
has a picture which cannot be looked for, that misses pictures, that has an unusable picture
or a bad directive, or that has nothing of the kind.  Each names the faults that come before
its own, so one of them always applies.

`DecidedInOrder` is the rule that authors are promised: missing pictures first, all of
them in one report, then the first picture that cannot be used, then the first bad
directive.  `compileDocument_decidedInOrder_iff` says exactly when the rule is kept.
-/
import SvgDeck.Proofs.Bundle
import SvgDeck.Proofs.Path

namespace SvgDeck

variable {w : Workspace} {d : Document} {folder : FolderName}

/-! ### Faults -/

/-- A picture cannot be looked for: its path is too long, or does not stand for bytes. -/
def LostPicture (w : Workspace) (folder : Path) (d : Document) : Prop :=
  ∃ root ∈ d.pictures, w.BalksAt (assetPath folder root)

/-- The file of a picture is not UTF-8 or has no body. -/
def Unusable (w : Workspace) (folder : Path) (root : Text) : Prop :=
  ¬ ∃ body, HasBody w folder root body

/-- The focus or the highlight of a flow does not compile. -/
def BadDirective (f : Flow) : Prop :=
  (∃ t, f.focus = some t ∧ Fails (compileFocus t f.id)) ∨
    ∃ t, f.highlight = some t ∧ Fails (compileHighlight t f.id)

theorem fails_animation_iff {f : Flow} : Fails f.animation ↔ BadDirective f := by
  have hfocus : (∃ m, CompiledTo (compileFocus · f.id) f.focus m) ∨
      ∃ t e, f.focus = some t ∧ compileFocus t f.id = .error e := by
    cases f.focus with
    | none => exact Or.inl ⟨none, .unset⟩
    | some t =>
      cases ht : compileFocus t f.id with
      | ok m => exact Or.inl ⟨some m, .set ht⟩
      | error e => exact Or.inr ⟨t, e, rfl, ht⟩
  -- A bad highlight is looked at only behind a good focus, but the flow fails either way.
  constructor
  · rintro ⟨e, he⟩
    rcases animation_eq_error.mp he with ⟨t, ht, hte⟩ | ⟨_, t, ht, hte⟩
    · exact Or.inl ⟨t, ht, e, hte⟩
    · exact Or.inr ⟨t, ht, e, hte⟩
  · rintro (⟨t, ht, e, hte⟩ | ⟨t, ht, e, hte⟩)
    · exact ⟨e, animation_eq_error.mpr (Or.inl ⟨t, ht, hte⟩)⟩
    · rcases hfocus with hm | ⟨u, e', hu, hue⟩
      · exact ⟨e, animation_eq_error.mpr (Or.inr ⟨hm, t, ht, hte⟩)⟩
      · exact ⟨e', animation_eq_error.mpr (Or.inl ⟨u, hu, hue⟩)⟩

theorem fails_animationEntry_iff {f : Flow} : Fails f.animationEntry ↔ BadDirective f := by
  rw [← fails_animation_iff]
  exact exists_congr fun e => map_eq_error

/-- No picture stands in the way: all of them have a body. -/
def AllUsable (w : Workspace) (folder : Path) (d : Document) : Prop :=
  ∀ root ∈ d.pictures, ∃ body, HasBody w folder root body

/-- A flow of a list with positions has a bad directive. -/
def BadAt (x : Flow × Nat) : Prop := BadDirective (x.1.qualifiedAt x.2)

/-! ### How each fault ends a run -/

theorem outcome_of_lost (h : LostPicture w folder.path d) :
    ∃ fault p, (compileDocument w d folder).outcome = .error (.path fault p) := by
  obtain ⟨root, hroot, hr⟩ := h
  obtain ⟨p, hp⟩ := exists_isFirst (p := w.BalksAt) ⟨_, List.mem_map_of_mem hroot, hr⟩
  obtain ⟨f, hf⟩ := exists_balksWith hp.holds
  obtain ⟨fault, t, rfl⟩ := hf.exists_eq
  have hbuild : (buildFragments w folder d.pictures).outcome = .error (.path fault t) :=
    (buildFragments_eq_error (nodup_pictures d)).mpr
      (Or.inl ((resolveAssets_eq_error (nodup_pictures d)).mpr (Or.inl ⟨p, hp, hf⟩)))
  exact ⟨fault, t, by rw [outcome_compileDocument, hbuild, error_bind]⟩

theorem not_balksAt (h : ¬ LostPicture w folder.path d) :
    ∀ root ∈ d.pictures, ¬ w.BalksAt (assetPath folder.path root) :=
  fun root hroot hr => h ⟨root, hroot, hr⟩

theorem outcome_of_missing (hl : ¬ LostPicture w folder.path d)
    (hm : missingIn w folder.path d.pictures ≠ []) :
    (compileDocument w d folder).outcome = .error (.reported (.missingAssets folder.shown
      ((missingIn w folder.path d.pictures).map (shownAsset w folder.path)))) := by
  rw [outcome_compileDocument, bind_eq_error]
  refine Or.inl ((buildFragments_eq_error (nodup_pictures d)).mpr (Or.inl ?_))
  exact (resolveAssets_eq_error (nodup_pictures d)).mpr (Or.inr ⟨not_balksAt hl, hm, rfl⟩)

theorem fails_fragment_iff {root : Text} :
    Fails (fragment w folder.path root) ↔ Unusable w folder.path root := by
  rw [Unusable, ← not_iff_not, not_fails, not_not]
  constructor
  · rintro ⟨x, hx⟩
    obtain ⟨body, hbody, _⟩ := fragment_eq_ok.mp hx
    exact ⟨body, hbody⟩
  · rintro ⟨body, hbody⟩
    exact ⟨_, fragment_eq_ok.mpr ⟨body, hbody, rfl⟩⟩

/-- The first unusable picture decides, if none is missing. -/
theorem outcome_of_unusable (hl : ¬ LostPicture w folder.path d)
    (hm : missingIn w folder.path d.pictures = []) {root : Text}
    (hu : IsFirst (Unusable w folder.path) d.pictures root) :
    ∃ f, fragment w folder.path root = .error f ∧
      (compileDocument w d folder).outcome = .error f := by
  obtain ⟨f, hf⟩ := fails_fragment_iff.mpr hu.holds
  refine ⟨f, hf, ?_⟩
  rw [outcome_compileDocument, bind_eq_error]
  refine Or.inl ((buildFragments_eq_error (nodup_pictures d)).mpr (Or.inr ⟨not_balksAt hl, hm, ?_⟩))
  exact mapM_eq_error.mpr ⟨root, hu.congr fun x _ => fails_fragment_iff.symm, hf⟩

theorem AllUsable.stands (h : AllUsable w folder.path d) :
    ∀ root ∈ d.pictures, ∃ e, w.entry (assetPath folder.path root) = .ok e := by
  intro root hroot
  obtain ⟨body, hfile, _, _⟩ := h root hroot
  exact ⟨_, hfile⟩

theorem AllUsable.not_lost (h : AllUsable w folder.path d) : ¬ LostPicture w folder.path d := by
  rintro ⟨root, hroot, hr⟩
  exact Workspace.not_balksAt_of_stands (Workspace.stands_eq_true.mpr (h.stands root hroot)) hr

theorem AllUsable.missingIn_eq_nil (h : AllUsable w folder.path d) :
    missingIn w folder.path d.pictures = [] :=
  SvgDeck.missingIn_eq_nil.mpr fun root hroot => Workspace.stands_eq_true.mpr (h.stands root hroot)

theorem AllUsable.exists_fragments (h : AllUsable w folder.path d) :
    ∃ x, (buildFragments w folder d.pictures).outcome = .ok x := by
  obtain ⟨fragments, hfragments⟩ := exists_mapM_eq_ok (f := fragment w folder.path)
    (l := d.pictures) fun root hroot hfail => fails_fragment_iff.mp hfail (h root hroot)
  exact ⟨_, (buildFragments_eq_ok (nodup_pictures d)).mpr
    ⟨not_balksAt h.not_lost, h.missingIn_eq_nil, fragments, hfragments, rfl⟩⟩

/-- A compiled document had its pictures and its directives compiled. -/
theorem outcome_of_allUsable (h : AllUsable w folder.path d) :
    ∃ x, (compileDocument w d folder).outcome = (do
      let entries ← d.qualifiedFlows.mapM Flow.animationEntry
      return d.bundle x (entries.filterMap id)) := by
  obtain ⟨x, hx⟩ := h.exists_fragments
  exact ⟨x, by rw [outcome_compileDocument, hx, ok_bind]⟩

/-- The first bad directive decides, if all pictures can be used. -/
theorem outcome_of_badDirective (h : AllUsable w folder.path d) {x : Flow × Nat}
    (hx : IsFirst BadAt d.numbered x) :
    ∃ f, (x.1.qualifiedAt x.2).animation = .error f ∧
      (compileDocument w d folder).outcome = .error f := by
  obtain ⟨f, hf⟩ := fails_animation_iff.mpr hx.holds
  obtain ⟨fragments, hout⟩ := outcome_of_allUsable h
  have hmap : IsFirst (fun g => Fails g.animationEntry) d.qualifiedFlows (x.1.qualifiedAt x.2) :=
    IsFirst.map (hx.congr fun y _ => fails_animationEntry_iff.symm)
  refine ⟨f, hf, ?_⟩
  rw [hout, bind_eq_error]
  exact Or.inl (mapM_eq_error.mpr ⟨_, hmap, map_eq_error.mpr hf⟩)

theorem outcome_of_compiles (h : AllUsable w folder.path d) (hd : ∀ x ∈ d.numbered, ¬ BadAt x) :
    ∃ b, (compileDocument w d folder).outcome = .ok b := by
  obtain ⟨fragments, hout⟩ := outcome_of_allUsable h
  have hentry : ∀ g ∈ d.qualifiedFlows, ¬ Fails g.animationEntry :=
    List.forall_mem_map.mpr fun x hx hfail => hd x hx (fails_animationEntry_iff.mp hfail)
  obtain ⟨entries, hentries⟩ := exists_mapM_eq_ok hentry
  exact ⟨_, by rw [hout, hentries, ok_bind]; rfl⟩

/-! ### The rule -/

/-- The condition that a bad directive is reported as. -/
def directiveConditions : List Condition := [.malformedFocus, .malformedHighlight, .negativeDuration]

/-- `c` is what a bad directive of a flow is reported as; a focus goes first. -/
inductive DirectiveFault (f : Flow) : Cause → Prop
  | focus {t : Text} {c : Cause} (set : f.focus = some t)
      (fault : compileFocus t f.id = .error (.reported c)) : DirectiveFault f c
  | highlight {t : Text} {c : Cause} (focus : ∀ u, f.focus = some u → ¬ Fails (compileFocus u f.id))
      (set : f.highlight = some t) (fault : compileHighlight t f.id = .error (.reported c)) :
      DirectiveFault f c

/-- How compiling should end: the first of four kinds of fault decides. -/
inductive DecidedInOrder (w : Workspace) (d : Document) (folder : FolderName) :
    Except Failure Bundle → Prop
  | missing {files : List Text} (missing : missingIn w folder.path d.pictures ≠ [])
      (exact : files = (missingIn w folder.path d.pictures).map (shownAsset w folder.path))
      (once : files.Nodup) :
      DecidedInOrder w d folder (.error (.reported (.missingAssets folder.shown files)))
  | unreadable {root : Text} {bytes : List UInt8} {fault : Utf8.Fault}
      (complete : missingIn w folder.path d.pictures = [])
      (first : IsFirst (Unusable w folder.path) d.pictures root)
      (file : w.entry (assetPath folder.path root) = .ok (.file bytes))
      (undecoded : Utf8.decodeLines bytes = .error fault) :
      DecidedInOrder w d folder (.error (.reported (.unreadableAsset (assetName root) fault)))
  | bodiless {root : Text} {bytes : List UInt8} {text : Text}
      (complete : missingIn w folder.path d.pictures = [])
      (first : IsFirst (Unusable w folder.path) d.pictures root)
      (file : w.entry (assetPath folder.path root) = .ok (.file bytes))
      (decoded : Utf8.decodeLines bytes = .ok text) (bodiless : body? text = none) :
      DecidedInOrder w d folder (.error (.reported (.missingBody (assetName root))))
  | directive {x : Flow × Nat} {c : Cause} (usable : AllUsable w folder.path d)
      (first : IsFirst BadAt d.numbered x) (fault : DirectiveFault (x.1.qualifiedAt x.2) c)
      (condition : c.condition ∈ directiveConditions) (subject : c.subject = qualify x.1.id x.2) :
      DecidedInOrder w d folder (.error (.reported c))
  | success {b : Bundle} (usable : AllUsable w folder.path d)
      (compiles : ∀ x ∈ d.numbered, ¬ BadAt x) : DecidedInOrder w d folder (.ok b)

/-- The duration of a directive that can be read is out of all bounds. -/
def Overflows (timing : Directive.Timing) : Prop := timing.duration? = none

/-- A directive of a flow fails without a report: its duration is out of all bounds, or it is a
highlight whose color has no UTF-8 form. -/
inductive Breaks (f : Flow) : Prop
  | focus {t : Text} {focus : Directive.Focus} (set : f.focus = some t)
      (read : Directive.Focus.parse t = .ok focus) (overflows : Overflows focus.timing)
  | highlight {t : Text} {highlight : Directive.Highlight}
      (focus : ∀ u, f.focus = some u → ¬ Fails (compileFocus u f.id)) (set : f.highlight = some t)
      (read : Directive.Highlight.parse t = .ok highlight)
      (breaks : highlight.color.any CodePoint.isSurrogate = true ∨ Overflows highlight.timing)

theorem durationFailure_eq_or (timing : Directive.Timing) :
    durationFailure timing = .precision ∨ durationFailure timing = .overflow := by
  rw [durationFailure]
  split
  · exact Or.inl rfl
  · exact Or.inr rfl

theorem isReported_durationFailure (timing : Directive.Timing) :
    (durationFailure timing).isReported = false := by
  rcases durationFailure_eq_or timing with h | h <;> rw [h] <;> rfl

theorem checkDuration_fault {kind : DirectiveKind} {flow : Text} {timing : Directive.Timing}
    {e : Failure} (h : checkDuration kind flow timing = .error e) :
    e = .reported (.negativeDuration kind flow timing) ∨
      (Overflows timing ∧ e = durationFailure timing) := by
  rcases checkDuration_eq_error.mp h with ⟨hd, rfl⟩ | ⟨_, rfl⟩
  · exact Or.inr ⟨hd, rfl⟩
  · exact Or.inl rfl

/-- A focus fails with a report about the flow, or its duration is out of all bounds. -/
theorem compileFocus_fault {t flow : Text} {e : Failure} (h : compileFocus t flow = .error e) :
    (∃ c, e = .reported c ∧ c.condition ∈ directiveConditions ∧ c.subject = flow) ∨
      (e.isReported = false ∧ ∃ focus, Directive.Focus.parse t = .ok focus ∧
        Overflows focus.timing ∧ e = durationFailure focus.timing) := by
  rcases compileFocus_eq_error.mp h with ⟨fault, _, rfl⟩ | ⟨focus, hread, hcheck⟩
  · exact Or.inl ⟨_, rfl, List.mem_cons_self, rfl⟩
  · rcases checkDuration_fault hcheck with rfl | ⟨hd, rfl⟩
    · exact Or.inl ⟨_, rfl, by simp [directiveConditions, Cause.condition], rfl⟩
    · exact Or.inr ⟨isReported_durationFailure _, focus, hread, hd, rfl⟩

theorem compileHighlight_fault {t flow : Text} {e : Failure}
    (h : compileHighlight t flow = .error e) :
    (∃ c, e = .reported c ∧ c.condition ∈ directiveConditions ∧ c.subject = flow) ∨
      (e.isReported = false ∧ ∃ highlight, Directive.Highlight.parse t = .ok highlight ∧
        (highlight.color.any CodePoint.isSurrogate = true ∨ Overflows highlight.timing)) := by
  rcases compileHighlight_eq_error.mp h with ⟨fault, _, rfl⟩ | ⟨highlight, hread, hbreak⟩
  · exact Or.inl ⟨_, rfl, by simp [directiveConditions, Cause.condition], rfl⟩
  · rcases hbreak with ⟨hc, rfl⟩ | ⟨_, hcheck⟩
    · exact Or.inr ⟨rfl, highlight, hread, Or.inl hc⟩
    · rcases checkDuration_fault hcheck with rfl | ⟨hd, rfl⟩
      · exact Or.inl ⟨_, rfl, by simp [directiveConditions, Cause.condition], rfl⟩
      · exact Or.inr ⟨isReported_durationFailure _, highlight, hread, Or.inr hd⟩

theorem not_fails_of_compiledTo {compile : Text → Except Failure Text} {directive m : Option Text}
    (h : CompiledTo compile directive m) : ∀ t, directive = some t → ¬ Fails (compile t) := by
  rintro t rfl
  cases h with
  | set h => exact not_fails.mpr ⟨_, h⟩

/-- A flow fails with a report about it, or it breaks. -/
theorem animation_fault {f : Flow} {e : Failure} (h : f.animation = .error e) :
    (∃ c, e = .reported c ∧ DirectiveFault f c ∧ c.condition ∈ directiveConditions ∧
      c.subject = f.id) ∨ (e.isReported = false ∧ Breaks f) := by
  rcases animation_eq_error.mp h with ⟨t, ht, hte⟩ | ⟨⟨m, hm⟩, t, ht, hte⟩
  · rcases compileFocus_fault hte with ⟨c, rfl, hc, hs⟩ | ⟨hne, focus, hread, ho, _⟩
    · exact Or.inl ⟨c, rfl, .focus ht hte, hc, hs⟩
    · exact Or.inr ⟨hne, .focus ht hread ho⟩
  · have hfocus := not_fails_of_compiledTo hm
    rcases compileHighlight_fault hte with ⟨c, rfl, hc, hs⟩ | ⟨hne, highlight, hread, hb⟩
    · exact Or.inl ⟨c, rfl, .highlight hfocus ht hte, hc, hs⟩
    · exact Or.inr ⟨hne, .highlight hfocus ht hread hb⟩

/-- A flow fails by one of its directives, never by its id. -/
theorem animation_ne_duplicateId (f : Flow) (id : Text) :
    f.animation ≠ .error (.reported (.duplicateId id)) := by
  intro h
  rcases animation_fault h with ⟨c, hc, _, hcond, _⟩ | ⟨hne, _⟩
  · cases hc
    simp [Cause.condition, directiveConditions] at hcond
  · cases hne

theorem checkDuration_of_overflows {kind : DirectiveKind} {flow : Text} {timing : Directive.Timing}
    (h : Overflows timing) : checkDuration kind flow timing = .error (durationFailure timing) :=
  checkDuration_eq_error.mpr (Or.inl ⟨h, rfl⟩)

theorem exists_compiledTo {compile : Text → Except Failure Text} {directive : Option Text}
    (h : ∀ t, directive = some t → ¬ Fails (compile t)) : ∃ m, CompiledTo compile directive m :=
  exists_compiledTo_iff.mpr fun t ht => not_fails.mp (h t ht)

/-- A flow that breaks is not reported. -/
theorem Breaks.animation {f : Flow} (h : Breaks f) :
    ∃ e, f.animation = .error e ∧ e.isReported = false := by
  cases h with
  | @focus t focus set read overflows =>
    have hf : compileFocus t f.id = .error (durationFailure focus.timing) :=
      compileFocus_eq_error.mpr (Or.inr ⟨focus, read, checkDuration_of_overflows overflows⟩)
    exact ⟨_, animation_eq_error.mpr (Or.inl ⟨t, set, hf⟩), isReported_durationFailure focus.timing⟩
  | @highlight t highlight focus set read breaks =>
    have hfocus := exists_compiledTo focus
    have hhigh : ∃ e, compileHighlight t f.id = .error e ∧ e.isReported = false := by
      by_cases hc : highlight.color.any CodePoint.isSurrogate = true
      · exact ⟨_, compileHighlight_eq_error.mpr (Or.inr ⟨highlight, read, Or.inl ⟨hc, rfl⟩⟩),
          rfl⟩
      · have ho : checkDuration .highlight f.id highlight.timing = _ :=
          checkDuration_of_overflows (breaks.resolve_left hc)
        exact ⟨_, compileHighlight_eq_error.mpr
          (Or.inr ⟨highlight, read, Or.inr ⟨by simpa using hc, ho⟩⟩),
          isReported_durationFailure highlight.timing⟩
    obtain ⟨e, he, hne⟩ := hhigh
    exact ⟨e, animation_eq_error.mpr (Or.inr ⟨hfocus, t, set, he⟩), hne⟩

/-- The first bad directive is one that breaks, and no picture stands in the way. -/
def BreaksFirst (w : Workspace) (folder : Path) (d : Document) : Prop :=
  AllUsable w folder d ∧ ∃ x, IsFirst BadAt d.numbered x ∧ Breaks (x.1.qualifiedAt x.2)

theorem BreaksFirst.outcome (h : BreaksFirst w folder.path d) :
    ∃ e, (compileDocument w d folder).outcome = .error e ∧ e.isReported = false := by
  obtain ⟨hu, x, hx, hb⟩ := h
  obtain ⟨e, he, hout⟩ := outcome_of_badDirective hu hx
  -- The flow has one outcome, so the failure that ends the run is the one that is not reported.
  obtain ⟨e', he', hne⟩ := hb.animation
  rw [he'] at he
  cases he
  exact ⟨e, hout, hne⟩

theorem DecidedInOrder.ne_error {x : Except Failure Bundle} (h : DecidedInOrder w d folder x)
    {e : Failure} (hne : e.isReported = false) : x ≠ .error e := by
  rintro rfl
  cases h with
  | missing => cases hne
  | unreadable => cases hne
  | bodiless => cases hne
  | directive => cases hne

/-! ### When the rule is kept -/

/-- The files of missing pictures are reported once each. -/
theorem nodup_shownAsset (hd : d.IsValid) :
    ((missingIn w folder.path d.pictures).map (shownAsset w folder.path)).Nodup := by
  refine List.Nodup.map_on (fun r hr r' hr' h => ?_) ((nodup_pictures d).filter _)
  exact shownAsset_injective (isFlowId_of_mem_pictures hd (List.mem_of_mem_filter hr))
    (isFlowId_of_mem_pictures hd (List.mem_of_mem_filter hr')) h

/-- A picture that is there, is no folder and is unusable is reported by the name of its file. -/
theorem decidedInOrder_of_unusable (hd : d.IsValid)
    (hm : missingIn w folder.path d.pictures = []) {root : Text}
    (hu : IsFirst (Unusable w folder.path) d.pictures root)
    (hf : w.entry (assetPath folder.path root) ≠ .ok .folder) {f : Failure}
    (h : fragment w folder.path root = .error f) : DecidedInOrder w d folder (.error f) := by
  have hname := name_assetPath folder.path (isFlowId_of_mem_pictures hd hu.mem)
  obtain ⟨e, he⟩ := Workspace.stands_eq_true.mp (missingIn_eq_nil.mp hm root hu.mem)
  rcases fragment_eq_error.mp h with hread | ⟨bytes, fault, hfile, hdec, rfl⟩ |
    ⟨bytes, text, hfile, hdec, hbody, rfl⟩
  · rcases Workspace.read_eq_error.mp hread with ⟨hfolder, _⟩ | ⟨fault, hfault, _⟩
    · exact absurd hfolder hf
    · rw [he] at hfault
      cases hfault
  · rw [hname]
    exact .unreadable hm hu hfile hdec
  · rw [hname]
    exact .bodiless hm hu hfile hdec hbody

/-- No outcome says that an id is not unique. -/
theorem compileDocument_ne_duplicateId (id : Text) :
    (compileDocument w d folder).outcome ≠ .error (.reported (.duplicateId id)) := by
  intro h
  rw [outcome_compileDocument, bind_eq_error] at h
  -- None of the faults of a pass says so; ids are unique before the passes begin.
  rcases h with h | ⟨x, _, h⟩
  · rcases (buildFragments_eq_error (nodup_pictures d)).mp h with h | ⟨_, _, h⟩
    · rcases (resolveAssets_eq_error (nodup_pictures d)).mp h with ⟨p, _, h⟩ | ⟨_, _, h⟩
      · obtain ⟨_, _, h⟩ := h.exists_eq
        cases h
      · cases h
    · obtain ⟨root, _, h⟩ := mapM_eq_error.mp h
      rcases fragment_eq_error.mp h with h | ⟨_, _, _, _, h⟩ | ⟨_, _, _, _, _, h⟩
      · rcases Workspace.read_eq_error.mp h with ⟨_, h⟩ | ⟨_, _, h⟩
        · cases h
        · cases h
      · cases h
      · cases h
  · rcases bind_eq_error.mp h with h | ⟨_, _, h⟩
    · obtain ⟨f, _, h⟩ := mapM_eq_error.mp h
      exact animation_ne_duplicateId f id (map_eq_error.mp h)
    · cases h

/-- **The rule is kept** unless a picture cannot be looked for or the first bad directive is one that
breaks. -/
theorem compileDocument_decidedInOrder_iff (hd : d.IsValid)
    (hf : ∀ root ∈ d.pictures, w.entry (assetPath folder.path root) ≠ .ok .folder) :
    (DecidedInOrder w d folder (compileDocument w d folder).outcome ↔
      ¬ LostPicture w folder.path d ∧ ¬ BreaksFirst w folder.path d) ∧
    ∀ id, (compileDocument w d folder).outcome ≠ .error (.reported (.duplicateId id)) := by
  refine ⟨⟨fun h => ⟨fun hl => ?_, fun hb => ?_⟩, ?_⟩, compileDocument_ne_duplicateId⟩
  · obtain ⟨fault, p, hp⟩ := outcome_of_lost hl
    exact h.ne_error rfl hp
  · obtain ⟨e, he, hne⟩ := hb.outcome
    exact h.ne_error hne he
  · rintro ⟨hl, hb⟩
    -- The faults in the order of the rule, each where those before it are out of the way.
    by_cases hm : missingIn w folder.path d.pictures = []
    · by_cases hu : AllUsable w folder.path d
      · by_cases hbad : ∃ x ∈ d.numbered, BadAt x
        · obtain ⟨x, hx⟩ := exists_isFirst hbad
          obtain ⟨e, he, hout⟩ := outcome_of_badDirective hu hx
          rcases animation_fault he with ⟨c, rfl, hc, hcond, hsubject⟩ | ⟨_, hbreaks⟩
          · rw [hout]
            exact .directive hu hx hc hcond hsubject
          · exact absurd ⟨hu, x, hx, hbreaks⟩ hb
        · have hgood : ∀ x ∈ d.numbered, ¬ BadAt x := fun x hx hbx => hbad ⟨x, hx, hbx⟩
          obtain ⟨b, hout⟩ := outcome_of_compiles hu hgood
          rw [hout]
          exact .success hu hgood
      · have hunusable : ∃ root ∈ d.pictures, Unusable w folder.path root := by
          rw [AllUsable] at hu
          push Not at hu
          simpa [Unusable] using hu
        obtain ⟨root, hroot⟩ := exists_isFirst hunusable
        obtain ⟨f, hfrag, hout⟩ := outcome_of_unusable hl hm hroot
        rw [hout]
        exact decidedInOrder_of_unusable hd hm hroot (hf root hroot.mem) hfrag
    · rw [outcome_of_missing hl hm]
      exact .missing hm rfl (nodup_shownAsset hd)

theorem talk_isValid : talk.IsValid :=
  ⟨⟨by decide, by decide, by decide, by decide⟩, by decide⟩

theorem compileDocument_decidedInOrder_iff_talk :
    talk.IsValid ∧
    (∀ root ∈ talk.pictures, talkFolder.entry (assetPath (.ofText "talk") root) ≠ .ok .folder) ∧
    (DecidedInOrder talkFolder talk (.ofText "talk")
        (compileDocument talkFolder talk (.ofText "talk")).outcome ↔
      ¬ LostPicture talkFolder (.ofText "talk") talk ∧
        ¬ BreaksFirst talkFolder (.ofText "talk") talk) ∧
    ∀ id, (compileDocument talkFolder talk (.ofText "talk")).outcome ≠
      .error (.reported (.duplicateId id)) := by
  have hf : ∀ root ∈ talk.pictures,
      talkFolder.entry (assetPath (.ofText "talk") root) ≠ .ok .folder := by decide +kernel
  exact ⟨talk_isValid, hf, compileDocument_decidedInOrder_iff talk_isValid hf⟩

/-- A talk with a picture whose name is longer than the system allows. -/
def longTalk : Document where
  settings := talk.settings
  sections :=
    [⟨[⟨List.replicate 252 (CodePoint.ofChar 'a'), "One.", .zero false, none, none, none⟩], none⟩]

/-- The missing picture is not reported. -/
theorem longTalk_not_decidedInOrder :
    longTalk.IsValid ∧
    (∀ root ∈ longTalk.pictures, talkFolder.entry (assetPath (.ofText "talk") root) ≠ .ok .folder) ∧
    ¬ DecidedInOrder talkFolder longTalk (.ofText "talk")
      (compileDocument talkFolder longTalk (.ofText "talk")).outcome := by
  have hlost : LostPicture talkFolder (FolderName.ofText "talk").path longTalk :=
    ⟨List.replicate 252 (CodePoint.ofChar 'a'), by decide +kernel, by decide +kernel⟩
  obtain ⟨fault, p, hp⟩ := outcome_of_lost hlost
  refine ⟨⟨talk_isValid.settings, by decide +kernel⟩, by decide +kernel, fun h => ?_⟩
  exact h.ne_error rfl hp

end SvgDeck
