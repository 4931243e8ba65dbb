/-
Finding and loading documents.

Each step has one lemma for its results and one for its failures: `requireFolder_eq_ok`,
`documentNames_eq_ok`, `findDocument_eq_ok`, `loadDocument_eq_ok`, `compileFolder_eq_ok` and
the lemmas ending in `_eq_error`.  What is loaded passed the schema, so it is valid
(`isValid_of_loadDocument`).
-/
import SvgDeck.Deck.Build
import SvgDeck.Proofs.Path
import SvgDeck.Proofs.Validity

namespace SvgDeck

variable {w : Workspace} {folder p : Path} {f : Failure}

/-! ### Finding -/

theorem requireFolder_eq_ok {u : Unit} :
    (requireFolder w folder).outcome = .ok u ↔ w.entry folder = .ok .folder := by
  simp only [requireFolder, Run.outcome_bind, Run.outcome_ofExcept, bind_eq_ok,
    Workspace.isFolder_eq_ok, Workspace.Refuses]
  constructor
  · rintro ⟨found, ⟨_, rfl⟩, h⟩
    by_cases he : w.entry folder = .ok .folder
    · exact he
    · simp [he] at h
  · intro he
    exact ⟨true, by simp [he], rfl⟩

theorem requireFolder_eq_error :
    (requireFolder w folder).outcome = .error f ↔
      (w.Refuses folder ∧ f = .path .nameTooLong folder.text) ∨
      (¬ w.Refuses folder ∧ w.entry folder ≠ .ok .folder ∧
        f = .reported (.folderNotFound folder.text)) := by
  simp only [requireFolder, Run.outcome_bind, Run.outcome_ofExcept, bind_eq_error,
    Workspace.isFolder_eq_error, Workspace.isFolder_eq_ok]
  refine or_congr Iff.rfl ?_
  constructor
  · rintro ⟨found, ⟨hr, rfl⟩, h⟩
    by_cases he : w.entry folder = .ok .folder
    · simp [he] at h
    · simp only [he, decide_false, Bool.false_eq_true, if_false, Run.outcome_report,
        Except.error.injEq] at h
      exact ⟨hr, he, h.symm⟩
  · rintro ⟨hr, he, rfl⟩
    exact ⟨false, ⟨hr, by simp [he]⟩, rfl⟩

theorem requireFolder_of_refuses (h : w.Refuses folder) :
    (requireFolder w folder).outcome = .error (.path .nameTooLong folder.text) :=
  requireFolder_eq_error.mpr (Or.inl ⟨h, rfl⟩)

/-- The path to something in the folder is too long to be looked up. -/
def RefusesEntry (w : Workspace) (folder : Path) : Prop :=
  ∃ name ∈ w.names folder, w.Refuses (folder.child name)

instance : Decidable (RefusesEntry w folder) :=
  inferInstanceAs (Decidable (∃ name ∈ w.names folder, w.Refuses (folder.child name)))

theorem documentNames_eq_error :
    documentNames w folder = .error f ↔ ∃ name,
      IsFirst (fun n => w.Refuses (folder.child n)) (w.names folder) name ∧
      f = .path .nameTooLong (folder.child name).text := by
  rw [documentNames, bind_eq_error, Workspace.filesIn_eq_error]
  exact or_iff_left (by simp)

theorem documentNames_eq_ok {names : List Text} :
    documentNames w folder = .ok names ↔ ¬ RefusesEntry w folder ∧
      names = (((w.names folder).filter fun name => w.standsFile (folder.child name)).filter
        isDocumentName).mergeSort Text.le := by
  simp only [documentNames, bind_eq_ok, Workspace.filesIn_eq_ok, pure_eq_ok, Except.ok.injEq]
  constructor
  · rintro ⟨_, ⟨hr, rfl⟩, rfl⟩
    exact ⟨fun ⟨name, hname, h⟩ => hr name hname h, rfl⟩
  · rintro ⟨hr, rfl⟩
    exact ⟨_, ⟨fun name hname h => hr ⟨name, hname, h⟩, rfl⟩, rfl⟩

theorem mem_of_only {name : Text} (h : documentNames w folder = .ok [name]) :
    name ∈ ((w.names folder).filter fun name => w.standsFile (folder.child name)).filter
      isDocumentName := by
  have hmem : name ∈ [name] := List.mem_singleton_self name
  rwa [(documentNames_eq_ok.mp h).2, List.mem_mergeSort] at hmem

theorem isDocumentName_of_only {name : Text} (h : documentNames w folder = .ok [name]) :
    isDocumentName name = true := (List.mem_filter.mp (mem_of_only h)).2

theorem isName_of_only {name : Text} (h : documentNames w folder = .ok [name]) : name.IsName :=
  Workspace.isName_of_mem_names (List.mem_of_mem_filter (List.mem_of_mem_filter (mem_of_only h)))

/-- The document of a folder is a file. -/
theorem entry_of_only {name : Text} (h : documentNames w folder = .ok [name]) :
    ∃ bytes, w.entry (folder.child name) = .ok (.file bytes) := by
  obtain ⟨hmem, _⟩ := List.mem_filter.mp (mem_of_only h)
  exact Workspace.standsFile_eq_true.mp (List.mem_filter.mp hmem).2

/-- The end of a search: one name is the document, any other number of them is a failure. -/
theorem findDocument_eq_ok :
    (findDocument w folder).outcome = .ok p ↔ w.entry folder = .ok .folder ∧
      ∃ name, documentNames w folder = .ok [name] ∧ p = folder.child name := by
  simp only [findDocument, Run.outcome_bind, bind_eq_ok, requireFolder_eq_ok, Run.outcome_ofExcept]
  constructor
  · rintro ⟨_, he, names, hnames, h⟩
    split at h
    · next name =>
      simp only [Run.outcome_bind, Run.outcome_write, ok_bind, Run.outcome_pure,
        Except.ok.injEq] at h
      exact ⟨he, name, hnames, h.symm⟩
    · cases h
  · rintro ⟨he, name, hnames, rfl⟩
    exact ⟨(), he, [name], hnames, rfl⟩

theorem findDocument_eq_error :
    (findDocument w folder).outcome = .error f ↔
      (requireFolder w folder).outcome = .error f ∨ (w.entry folder = .ok .folder ∧
        (documentNames w folder = .error f ∨
          ∃ names, documentNames w folder = .ok names ∧ (∀ name, names ≠ [name]) ∧
            f = .reported (.noSingleDocument folder.text names))) := by
  simp only [findDocument, Run.outcome_bind, bind_eq_error, requireFolder_eq_ok,
    Run.outcome_ofExcept]
  refine or_congr Iff.rfl ?_
  constructor
  · rintro ⟨_, he, h | ⟨names, hnames, h⟩⟩
    · exact ⟨he, Or.inl h⟩
    · split at h
      · cases h
      · next hsingle => exact ⟨he, Or.inr ⟨names, hnames, hsingle, (Except.error.inj h).symm⟩⟩
  · rintro ⟨he, h | ⟨names, hnames, hsingle, rfl⟩⟩
    · exact ⟨(), he, Or.inl h⟩
    · refine ⟨(), he, Or.inr ⟨names, hnames, ?_⟩⟩
      split
      · next name => exact absurd rfl (hsingle name)
      · rfl

/-! ### Loading -/

section Loading

variable [DataReader]

theorem loadDocument_eq_ok {d : Document} :
    (loadDocument w p).outcome = .ok d ↔ ∃ bytes data, w.entry p = .ok (.file bytes) ∧
      loadData p bytes = .ok data ∧ Document.check data = .valid d := by
  simp only [loadDocument, Run.outcome_bind, Run.outcome_ofExcept, bind_eq_ok,
    Workspace.exists?_eq_ok]
  constructor
  · rintro ⟨found, ⟨_, rfl⟩, h⟩
    by_cases hs : w.stands p = true
    · simp only [hs, Bool.not_true, Bool.false_eq_true, if_false, Run.outcome_bind,
        Run.outcome_ofExcept, bind_eq_ok, Workspace.read_eq_ok] at h
      obtain ⟨bytes, hfile, data, hdata, h⟩ := h
      split at h
      · cases h
      · next d' hcheck =>
        cases h
        exact ⟨bytes, data, hfile, hdata, hcheck⟩
    · simp [hs] at h
  · rintro ⟨bytes, data, hfile, hdata, hcheck⟩
    have hs : w.stands p = true := Workspace.stands_eq_true.mpr ⟨_, hfile⟩
    refine ⟨true, ⟨by simp [Workspace.Refuses, hfile], hs.symm⟩, ?_⟩
    simp only [Bool.not_true, Bool.false_eq_true, if_false, Run.outcome_bind,
      Run.outcome_ofExcept, bind_eq_ok, Workspace.read_eq_ok]
    exact ⟨bytes, hfile, data, hdata, by rw [hcheck]; rfl⟩

theorem isValid_of_loadDocument {d : Document} (h : (loadDocument w p).outcome = .ok d) :
    d.IsValid := by
  obtain ⟨_, _, _, _, hcheck⟩ := loadDocument_eq_ok.mp h
  exact isValid_of_check hcheck

/-- Why a document is not loaded from a path where something stands. -/
inductive LoadFault (w : Workspace) (p : Path) : Failure → Prop
  | folder (h : w.entry p = .ok .folder) : LoadFault w p (.path .isFolder p.text)
  | data {bytes : List UInt8} {f : Failure} (file : w.entry p = .ok (.file bytes))
      (h : loadData p bytes = .error f) : LoadFault w p f
  | rejected {bytes : List UInt8} {data : Value} {first : Finding} {more : List Finding}
      (file : w.entry p = .ok (.file bytes)) (loaded : loadData p bytes = .ok data)
      (h : Document.check data = .invalid first more) :
      LoadFault w p (.reported (.rejectedDocument p.text (first :: more)))

theorem loadDocument_eq_error :
    (loadDocument w p).outcome = .error f ↔
      (w.Refuses p ∧ f = .path .nameTooLong p.text) ∨
      (¬ w.Refuses p ∧ w.stands p = false ∧ f = .noDocument p.text) ∨ LoadFault w p f := by
  simp only [loadDocument, Run.outcome_bind, Run.outcome_ofExcept, bind_eq_error,
    Workspace.exists?_eq_error, Workspace.exists?_eq_ok]
  refine or_congr Iff.rfl ?_
  constructor
  · rintro ⟨found, ⟨hr, rfl⟩, h⟩
    by_cases hs : w.stands p = true
    · simp only [hs, Bool.not_true, Bool.false_eq_true, if_false, Run.outcome_bind,
        Run.outcome_ofExcept, bind_eq_error, Workspace.read_eq_ok, Workspace.read_eq_error] at h
      refine Or.inr ?_
      rcases h with (⟨hfolder, rfl⟩ | ⟨fault, hfault, rfl⟩) | ⟨bytes, hfile, h | ⟨data, hdata, h⟩⟩
      · exact .folder hfolder
      · obtain ⟨e, he⟩ := Workspace.stands_eq_true.mp hs
        rw [he] at hfault
        cases hfault
      · exact .data hfile h
      · split at h
        · next first more hcheck =>
          cases h
          exact .rejected hfile hdata hcheck
        · cases h
    · simp only [hs, Bool.not_false, if_true, Run.outcome_fail, Except.error.injEq] at h
      exact Or.inl ⟨hr, by simpa using hs, h.symm⟩
  · rintro (⟨hr, hs, rfl⟩ | h)
    · exact ⟨false, ⟨hr, hs.symm⟩, rfl⟩
    · -- All faults of loading are faults of something that stands there.
      have hentry : ∃ e, w.entry p = .ok e := by
        cases h with
        | folder h => exact ⟨_, h⟩
        | data file h => exact ⟨_, file⟩
        | rejected file loaded h => exact ⟨_, file⟩
      have hr : ¬ w.Refuses p := by
        obtain ⟨e, he⟩ := hentry
        simp [Workspace.Refuses, he]
      refine ⟨true, ⟨hr, (Workspace.stands_eq_true.mpr hentry).symm⟩, ?_⟩
      simp only [Bool.not_true, Bool.false_eq_true, if_false, Run.outcome_bind,
        Run.outcome_ofExcept, bind_eq_error, Workspace.read_eq_ok, Workspace.read_eq_error]
      cases h with
      | folder h => exact Or.inl (Or.inl ⟨h, rfl⟩)
      | data file h => exact Or.inr ⟨_, file, Or.inl h⟩
      | rejected file loaded h => exact Or.inr ⟨_, file, Or.inr ⟨_, loaded, by rw [h]; rfl⟩⟩

/-! ### Compiling a folder -/

/-- The slideshow of a folder compiles: its only document is `d`, by this name. -/
structure Compiles (w : Workspace) (folder : Path) (name : Text) (d : Document) (b : Bundle) :
    Prop where
  found : w.entry folder = .ok .folder
  only : documentNames w folder = .ok [name]
  loaded : (loadDocument w (folder.child name)).outcome = .ok d
  compiled : (compileDocument w d (.ofPath folder)).outcome = .ok b

/-- A folder has at most one slideshow. -/
theorem Compiles.unique {name name' : Text} {d d' : Document} {b b' : Bundle}
    (h : Compiles w folder name d b) (h' : Compiles w folder name' d' b') :
    name = name' ∧ d = d' ∧ b = b' := by
  obtain rfl : name = name' := by
    have honly := h.only.symm.trans h'.only
    exact List.singleton_inj.mp (Except.ok.inj honly)
  obtain rfl : d = d' := Except.ok.inj (h.loaded.symm.trans h'.loaded)
  exact ⟨rfl, rfl, Except.ok.inj (h.compiled.symm.trans h'.compiled)⟩

theorem compileFolder_eq_error :
    (compileFolder w folder).outcome = .error f ↔
      (findDocument w folder).outcome = .error f ∨
      ∃ name, w.entry folder = .ok .folder ∧ documentNames w folder = .ok [name] ∧
        ((loadDocument w (folder.child name)).outcome = .error f ∨
          ∃ d, (loadDocument w (folder.child name)).outcome = .ok d ∧
            (compileDocument w d (.ofPath folder)).outcome = .error f) := by
  simp only [compileFolder, Run.outcome_bind, bind_eq_error, findDocument_eq_ok]
  refine or_congr Iff.rfl ?_
  constructor
  · rintro ⟨_, ⟨hfolder, name, hnames, rfl⟩, h⟩
    refine ⟨name, hfolder, hnames, h.imp_right ?_⟩
    rintro ⟨d, hload, hcompile | ⟨_, _, hcontra⟩⟩
    · rw [Path.parent_child] at hcompile
      exact ⟨d, hload, hcompile⟩
    · cases hcontra
  · rintro ⟨name, hfolder, hnames, h⟩
    refine ⟨_, ⟨hfolder, name, hnames, rfl⟩, h.imp_right ?_⟩
    rintro ⟨d, hload, hcompile⟩
    refine ⟨d, hload, Or.inl ?_⟩
    rw [Path.parent_child]
    exact hcompile

/-- A path in the folder that is too long stops everything. -/
theorem compileFolder_of_refusesEntry (hfolder : w.entry folder = .ok .folder)
    (h : RefusesEntry w folder) :
    ∃ p, (compileFolder w folder).outcome = .error (.path .nameTooLong p) := by
  obtain ⟨name, hname⟩ := exists_isFirst h
  have hnames := documentNames_eq_error.mpr ⟨name, hname, rfl⟩
  have hfind := findDocument_eq_error.mpr (Or.inr ⟨hfolder, Or.inl hnames⟩)
  exact ⟨_, compileFolder_eq_error.mpr (Or.inl hfind)⟩

theorem compileFolder_eq_ok {b : Bundle} :
    (compileFolder w folder).outcome = .ok (p, b) ↔
      ∃ name d, Compiles w folder name d b ∧ p = folder.child name := by
  simp only [compileFolder, Run.outcome_bind, bind_eq_ok, Run.outcome_pure, Except.ok.injEq,
    Prod.mk.injEq, findDocument_eq_ok]
  constructor
  · rintro ⟨_, ⟨hfolder, name, hnames, rfl⟩, d, hload, b', hcompile, rfl, rfl⟩
    rw [Path.parent_child] at hcompile
    exact ⟨name, d, ⟨hfolder, hnames, hload, hcompile⟩, rfl⟩
  · rintro ⟨name, d, h, rfl⟩
    refine ⟨_, ⟨h.found, name, h.only, rfl⟩, d, h.loaded, b, ?_, rfl, rfl⟩
    rw [Path.parent_child]
    exact h.compiled

end Loading

end SvgDeck
