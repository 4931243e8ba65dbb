/-
Failures without a report.

A failure that is no cause escapes: the author sees no report.  Loading a file escapes if the
reader of its data breaks down (`loadDocument_reports_iff`); compiling, if the search for
pictures ends at a path, if a picture is a folder, or if a directive breaks
(`compileDocument_escapes_iff`); and a build, if one of these escapes, if the system refuses the
folder or something in it, or if the page cannot be written (`build_escapes_iff`).
-/
import SvgDeck.Proofs.Build
import SvgDeck.Proofs.Starter
import SvgDeck.Proofs.Verdict

namespace SvgDeck

variable {w : Workspace} {folder p : Path} {d : Document} {f : Failure}

/-- An operation ends with a failure that is not reported. -/
def Escapes {α : Type} (x : Except Failure α) : Prop :=
  ∃ f, x = .error f ∧ f.isReported = false

/-- A result, or a cause that is reported. -/
def Reports {α : Type} (x : Except Failure α) : Prop :=
  (∃ a, x = .ok a) ∨ ∃ cause, x = .error (.reported cause)

theorem reports_iff {α : Type} {x : Except Failure α} : Reports x ↔ ¬ Escapes x := by
  constructor
  · rintro (⟨a, rfl⟩ | ⟨cause, rfl⟩) ⟨f, hf, hne⟩
    · cases hf
    · cases hf
      cases hne
  · intro h
    cases x with
    | ok a => exact Or.inl ⟨a, rfl⟩
    | error f =>
      have hf : f.isReported = true := by
        by_contra hne
        exact h ⟨f, rfl, eq_false_of_ne_true hne⟩
      obtain ⟨cause, rfl⟩ := Failure.isReported_eq_true.mp hf
      exact Or.inr ⟨cause, rfl⟩

theorem escapes_error {α : Type} (hne : f.isReported = false) :
    Escapes (.error f : Except Failure α) := ⟨f, rfl, hne⟩

theorem not_escapes_ok {α : Type} (a : α) : ¬ Escapes (.ok a : Except Failure α) :=
  reports_iff.mp (Or.inl ⟨a, rfl⟩)

theorem not_escapes_reported {α : Type} (cause : Cause) :
    ¬ Escapes (.error (.reported cause) : Except Failure α) :=
  reports_iff.mp (Or.inr ⟨cause, rfl⟩)

/-! ### Loading -/

/-- A document, or a report that it is not valid. -/
def LoadReports (x : Except Failure Document) : Prop :=
  (∃ d, x = .ok d) ∨
    ∃ cause, x = .error (.reported cause) ∧ cause.condition = .invalidDocument

theorem LoadReports.not_escapes {x : Except Failure Document} (h : LoadReports x) :
    ¬ Escapes x := by
  rcases h with ⟨d, rfl⟩ | ⟨cause, rfl, _⟩
  · exact not_escapes_ok d
  · exact not_escapes_reported cause

/-- Whether a reader broke down. -/
def isBreakdown (x : Except DataFault Value) : Bool :=
  match x with
  | .error (.breakdown _) => true
  | _ => false

theorem isBreakdown_eq_true {x : Except DataFault Value} :
    isBreakdown x = true ↔ ∃ b, x = .error (.breakdown b) := by
  cases x with
  | ok data => simp [isBreakdown]
  | error fault => cases fault <;> simp [isBreakdown]

section Loading

variable [DataReader]

/-- The reader breaks down on the file at a path: what stops it is neither that the bytes are no
text nor that the text is malformed. -/
def BreaksDown (w : Workspace) (p : Path) : Prop :=
  ∃ bytes b, w.entry p = .ok (.file bytes) ∧ DataReader.read bytes = .error (.breakdown b)

theorem loadData_of_breakdown {bytes : List UInt8} {b : Yaml.Breakdown}
    (h : DataReader.read bytes = .error (.breakdown b)) :
    loadData p bytes = .error (.breakdown b) := by
  rw [loadData, h]

/-- The other two faults of data are reported. -/
theorem loadData_fault {bytes : List UInt8} (h : loadData p bytes = .error f) :
    (∃ cause, f = .reported cause ∧ cause.condition = .invalidDocument) ∨
      ∃ b, DataReader.read bytes = .error (.breakdown b) ∧ f = .breakdown b := by
  rw [loadData] at h
  cases hread : DataReader.read bytes with
  | ok data =>
    rw [hread] at h
    cases h
  | error fault =>
    rw [hread] at h
    cases fault with
    | undecodable fault => exact Or.inl ⟨_, (Except.error.inj h).symm, rfl⟩
    | malformed => exact Or.inl ⟨_, (Except.error.inj h).symm, rfl⟩
    | breakdown b => exact Or.inr ⟨b, rfl, (Except.error.inj h).symm⟩

theorem loadDocument_of_breaksDown (h : BreaksDown w p) : Escapes (loadDocument w p).outcome := by
  obtain ⟨bytes, b, hfile, hread⟩ := h
  rw [loadDocument_eq_error.mpr (Or.inr (Or.inr (.data hfile (loadData_of_breakdown hread))))]
  exact escapes_error rfl

theorem loadDocument_of_folder (h : w.entry p = .ok .folder) :
    Escapes (loadDocument w p).outcome := by
  rw [loadDocument_eq_error.mpr (Or.inr (Or.inr (.folder h)))]
  exact escapes_error rfl

/-- All other faults of a file are reported, and in one way. -/
theorem LoadFault.invalidDocument (h : LoadFault w p f) (hfolder : w.entry p ≠ .ok .folder)
    (hbreaks : ¬ BreaksDown w p) :
    ∃ cause, f = .reported cause ∧ cause.condition = .invalidDocument := by
  cases h with
  | folder h => exact absurd h hfolder
  | data file h =>
    rcases loadData_fault h with hcause | ⟨b, hread, _⟩
    · exact hcause
    · exact absurd ⟨_, b, file, hread⟩ hbreaks
  | rejected file loaded h => exact ⟨_, rfl, rfl⟩

/-- Loading what is there ends in a document or a report, unless it is a folder or the reader breaks
down. -/
theorem loadDocument_reports_iff (hs : w.stands p = true) :
    LoadReports (loadDocument w p).outcome ↔ w.entry p ≠ .ok .folder ∧ ¬ BreaksDown w p := by
  constructor
  · intro h
    exact ⟨fun hfolder => h.not_escapes (loadDocument_of_folder hfolder),
      fun hbreaks => h.not_escapes (loadDocument_of_breaksDown hbreaks)⟩
  · rintro ⟨hfolder, hbreaks⟩
    cases hload : (loadDocument w p).outcome with
    | ok d => exact Or.inl ⟨d, rfl⟩
    | error f =>
      rcases loadDocument_eq_error.mp hload with ⟨hr, _⟩ | ⟨_, hnone, _⟩ | hfault
      · obtain ⟨e, he⟩ := Workspace.stands_eq_true.mp hs
        rw [Workspace.Refuses, he] at hr
        cases hr
      · rw [hs] at hnone
        cases hnone
      · obtain ⟨cause, rfl, hcause⟩ := hfault.invalidDocument hfolder hbreaks
        exact Or.inr ⟨cause, rfl, hcause⟩

end Loading

/-! ### Compiling -/

/-- Compiling a document is stopped without a report. -/
inductive CompileEscapes (w : Workspace) (folder : Path) (d : Document) : Prop
  | lost (h : LostPicture w folder d)
  | folder {root : Text} (sought : ¬ LostPicture w folder d)
      (complete : missingIn w folder d.pictures = [])
      (first : IsFirst (Unusable w folder) d.pictures root)
      (h : w.entry (assetPath folder root) = .ok .folder)
  | directive (h : BreaksFirst w folder d)

/-- An unusable picture escapes only as a folder. -/
theorem fragment_fault {root : Text} (h : fragment w folder root = .error f)
    (hs : w.stands (assetPath folder root) = true) :
    (∃ cause, f = .reported cause) ∨
      (w.entry (assetPath folder root) = .ok .folder ∧
        f = .path .isFolder (assetPath folder root).text) := by
  obtain ⟨e, he⟩ := Workspace.stands_eq_true.mp hs
  rcases fragment_eq_error.mp h with hread | ⟨_, _, _, _, rfl⟩ | ⟨_, _, _, _, _, rfl⟩
  · rcases Workspace.read_eq_error.mp hread with hfolder | ⟨fault, hfault, _⟩
    · exact Or.inr hfolder
    · rw [he] at hfault
      cases hfault
  · exact Or.inl ⟨_, rfl⟩
  · exact Or.inl ⟨_, rfl⟩

theorem fragment_of_folder {root : Text} (h : w.entry (assetPath folder root) = .ok .folder) :
    fragment w folder root = .error (.path .isFolder (assetPath folder root).text) :=
  fragment_eq_error.mpr (Or.inl (Workspace.read_eq_error.mpr (Or.inl ⟨h, rfl⟩)))

theorem CompileEscapes.escapes {folder : FolderName} (h : CompileEscapes w folder.path d) :
    Escapes (compileDocument w d folder).outcome := by
  cases h with
  | lost h =>
    obtain ⟨fault, p, hp⟩ := outcome_of_lost h
    rw [hp]
    exact escapes_error rfl
  | folder sought complete first h =>
    obtain ⟨f, hf, hout⟩ := outcome_of_unusable sought complete first
    rw [fragment_of_folder h] at hf
    rw [hout, ← Except.error.inj hf]
    exact escapes_error rfl
  | directive h =>
    obtain ⟨e, he, hne⟩ := h.outcome
    exact ⟨e, he, hne⟩

theorem compileDocument_escapes_iff {folder : FolderName} :
    Escapes (compileDocument w d folder).outcome ↔ CompileEscapes w folder.path d := by
  refine ⟨fun h => ?_, CompileEscapes.escapes⟩
  -- Every fault before the one that escapes is reported, so the faults are taken in order.
  by_cases hl : LostPicture w folder.path d
  · exact .lost hl
  by_cases hm : missingIn w folder.path d.pictures = []
  · by_cases hu : ∃ root ∈ d.pictures, Unusable w folder.path root
    · obtain ⟨root, hroot⟩ := exists_isFirst hu
      obtain ⟨f, hf, hout⟩ := outcome_of_unusable hl hm hroot
      rw [hout] at h
      rcases fragment_fault hf (missingIn_eq_nil.mp hm root hroot.mem) with
        ⟨cause, rfl⟩ | ⟨hfolder, _⟩
      · exact absurd h (not_escapes_reported cause)
      · exact .folder hl hm hroot hfolder
    · have husable : AllUsable w folder.path d := by
        intro root hroot
        by_contra hnone
        exact hu ⟨root, hroot, hnone⟩
      by_cases hbad : ∃ x ∈ d.numbered, BadAt x
      · obtain ⟨x, hx⟩ := exists_isFirst hbad
        obtain ⟨e, he, hout⟩ := outcome_of_badDirective husable hx
        rw [hout] at h
        rcases animation_fault he with ⟨cause, rfl, _⟩ | ⟨_, hbreaks⟩
        · exact absurd h (not_escapes_reported cause)
        · exact .directive ⟨husable, x, hx, hbreaks⟩
      · obtain ⟨b, hb⟩ := outcome_of_compiles husable fun x hx hbx => hbad ⟨x, hx, hbx⟩
        rw [hb] at h
        exact absurd h (not_escapes_ok b)
  · rw [outcome_of_missing hl hm] at h
    exact absurd h (not_escapes_reported _)

/-! ### Building -/

/-- Nothing that a write refuses is reported. -/
theorem isReported_of_write {bytes : List UInt8} (h : w.write p bytes = .error f) :
    f.isReported = false := by
  rw [Workspace.write] at h
  split at h
  · cases h
    rfl
  · split at h <;> cases h <;> rfl

theorem refuses_of_requireFolder (h : (requireFolder w folder).outcome = .error f)
    (hne : f.isReported = false) : w.Refuses folder := by
  rcases requireFolder_eq_error.mp h with ⟨hr, _⟩ | ⟨_, _, rfl⟩
  · exact hr
  · cases hne

section Building

variable [DataReader]

/-- A build is stopped without a report, by the folder, something in it, the document, compiling or
the page. -/
inductive BuildEscapes (w : Workspace) (folder : Path) : Prop
  | folder (h : w.Refuses folder)
  | entry (found : w.entry folder = .ok .folder) (h : RefusesEntry w folder)
  | document {name : Text} (found : w.entry folder = .ok .folder)
      (only : documentNames w folder = .ok [name]) (h : BreaksDown w (folder.child name))
  | compile {name : Text} {d : Document} (found : w.entry folder = .ok .folder)
      (only : documentNames w folder = .ok [name])
      (loaded : (loadDocument w (folder.child name)).outcome = .ok d)
      (h : CompileEscapes w folder d)
  | page {name : Text} {d : Document} {b : Bundle} (compiled : Compiles w folder name d b)
      (h : w.Refuses (folder.child (pageName name)) ∨
        w.entry (folder.child (pageName name)) = .ok .folder ∨
        ¬ ((titleOf name).IsUnicode ∧ ∀ flow ∈ d.flows, flow.html.IsUnicode))

theorem Compiles.exists_canWrite_iff {name : Text} {b : Bundle} (h : Compiles w folder name d b) :
    (∃ place, w.CanWrite (folder.child (pageName name)) place) ↔
      ¬ w.Refuses (folder.child (pageName name)) ∧
        w.entry (folder.child (pageName name)) ≠ .ok .folder := by
  obtain ⟨base, hl, hf⟩ := Workspace.entry_eq_ok.mp h.found
  exact Workspace.exists_canWrite_child_iff hl hf (isName_pageName (isName_of_only h.only))
    (pageName_ne_above name)

/-- What is wrong with a folder or its number of documents is reported, unless a path is refused. -/
theorem findDocument_escapes (h : (findDocument w folder).outcome = .error f)
    (hne : f.isReported = false) : BuildEscapes w folder := by
  rcases findDocument_eq_error.mp h with hfolder | ⟨hfound, hnames | ⟨_, _, _, rfl⟩⟩
  · exact .folder (refuses_of_requireFolder hfolder hne)
  · obtain ⟨name, hname, _⟩ := documentNames_eq_error.mp hnames
    exact .entry hfound ⟨name, hname.mem, hname.holds⟩
  · cases hne

theorem compileFolder_escapes (h : (compileFolder w folder).outcome = .error f)
    (hne : f.isReported = false) : BuildEscapes w folder := by
  rcases compileFolder_eq_error.mp h with
    hfind | ⟨name, hfolder, hnames, hload | ⟨d, hload, hcompile⟩⟩
  · exact findDocument_escapes hfind hne
  · refine .document hfolder hnames ?_
    -- The document is a file, so only the reader can break down on it.
    obtain ⟨bytes, hfile⟩ := entry_of_only hnames
    by_contra hbad
    have hs : w.stands (folder.child name) = true := Workspace.stands_eq_true.mpr ⟨_, hfile⟩
    have hreports : LoadReports (loadDocument w (folder.child name)).outcome :=
      (loadDocument_reports_iff hs).mpr ⟨by simp [hfile], hbad⟩
    exact hreports.not_escapes ⟨f, hload, hne⟩
  · exact .compile hfolder hnames hload (compileDocument_escapes_iff.mp ⟨f, hcompile, hne⟩)

/-- A build fails where compiling its folder fails. -/
theorem build_of_escapes (h : Escapes (compileFolder w folder).outcome) :
    Escapes (build w folder).2.outcome := by
  obtain ⟨f, hf, hne⟩ := h
  exact ⟨f, (build_of_error hf).2, hne⟩

theorem BuildEscapes.escapes (h : BuildEscapes w folder) : Escapes (build w folder).2.outcome := by
  cases h with
  | folder hr =>
    have hfind := findDocument_eq_error.mpr (Or.inl (requireFolder_of_refuses hr))
    refine build_of_escapes ?_
    rw [compileFolder_eq_error.mpr (Or.inl hfind)]
    exact escapes_error rfl
  | entry found h =>
    obtain ⟨p, hp⟩ := compileFolder_of_refusesEntry found h
    exact build_of_escapes ⟨_, hp, rfl⟩
  | @document name found only h =>
    obtain ⟨f, hf, hne⟩ := loadDocument_of_breaksDown h
    exact build_of_escapes
      ⟨f, compileFolder_eq_error.mpr (Or.inr ⟨name, found, only, Or.inl hf⟩), hne⟩
  | @compile name d found only loaded h =>
    have hcompile : Escapes (compileDocument w d (.ofPath folder)).outcome :=
      compileDocument_escapes_iff.mpr h
    obtain ⟨f, hf, hne⟩ := hcompile
    exact build_of_escapes
      ⟨f, compileFolder_eq_error.mpr (Or.inr ⟨name, found, only, Or.inr ⟨d, loaded, hf⟩⟩), hne⟩
  | @page name d b compiled h =>
    by_cases hw : ∃ place, w.CanWrite (folder.child (pageName name)) place
    · obtain ⟨hr, hfolder⟩ := compiled.exists_canWrite_iff.mp hw
      obtain ⟨place, hw⟩ := hw
      have hbad := (h.resolve_left hr).resolve_left hfolder
      obtain ⟨u, hu, _⟩ :=
        build_of_not_isUnicode compiled hw fun ht => hbad (compiled.isUnicode_iff.mp ht)
      rw [hu]
      exact escapes_error rfl
    · obtain ⟨f, hf, _, hout⟩ := build_of_not_canWrite compiled hw
      exact ⟨f, hout, isReported_of_write hf⟩

theorem build_escapes_iff : Escapes (build w folder).2.outcome ↔ BuildEscapes w folder := by
  refine ⟨?_, BuildEscapes.escapes⟩
  rintro ⟨f, hf, hne⟩
  cases hcompile : (compileFolder w folder).outcome with
  | error f' =>
    rw [(build_of_error hcompile).2] at hf
    obtain rfl := Except.error.inj hf
    exact compileFolder_escapes hcompile hne
  | ok compiled =>
    -- Everything is compiled, so it was the page that could not be written.
    obtain ⟨path, b⟩ := compiled
    obtain ⟨name, d, hc, rfl⟩ := compileFolder_eq_ok.mp hcompile
    refine .page hc ?_
    by_contra hnone
    rw [not_or, not_or, not_not] at hnone
    obtain ⟨hr, hfolder, hunicode⟩ := hnone
    obtain ⟨place, hw⟩ := hc.exists_canWrite_iff.mpr ⟨hr, hfolder⟩
    rw [(build_of_isUnicode hc hw (hc.isUnicode_iff.mpr hunicode)).1] at hf
    cases hf

end Building

/-! ### Seeding -/

/-- Seeding is stopped without a report: the folder is refused, or it is empty and the document of
the starter is refused in it. -/
def SeedEscapes (w : Workspace) (folder : Path) : Prop :=
  w.Refuses folder ∨ (w.entry folder = .ok .folder ∧ w.isEmptyFolder folder = true ∧
    w.Refuses (folder.child "slideshow.yml"))

theorem seed_escapes_iff : Escapes (seed w folder).2.outcome ↔ SeedEscapes w folder := by
  constructor
  · rintro ⟨f, hf, hne⟩
    cases hempty : (requireEmptyFolder w folder).outcome with
    | error f' =>
      rw [(seed_of_error hempty).2] at hf
      obtain rfl := Except.error.inj hf
      rcases requireEmptyFolder_eq_error.mp hempty with hfolder | ⟨_, _, rfl⟩
      · exact Or.inl (refuses_of_requireFolder hfolder hne)
      · cases hne
    | ok u =>
      obtain ⟨hfolder, he⟩ := requireEmptyFolder_eq_ok.mp hempty
      refine Or.inr ⟨hfolder, he, ?_⟩
      by_contra hr
      rw [(seed_of_not_refused hfolder he hr).1] at hf
      cases hf
  · rintro (hr | ⟨hfolder, he, hr⟩)
    · have hempty := requireEmptyFolder_eq_error.mpr (Or.inl (requireFolder_of_refuses hr))
      rw [(seed_of_error hempty).2]
      exact escapes_error rfl
    · rw [(seed_of_refused hfolder he hr).2]
      exact escapes_error rfl

end SvgDeck
