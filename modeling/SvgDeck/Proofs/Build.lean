/-
What a build leaves behind.

A build composes the whole page before it writes, so a failure before that changes nothing
(`build_of_error`), and the only change is the one that writing the page makes
(`build_of_compiles`).  The page stands beside the document under another name, and no
document and no picture has that name, so no source is ever replaced (`pageName_ne_source`).

* `writesPage_of_build` — a build that succeeds writes the page and changes nothing else;
* `agree_build_iff` — one that fails leaves the workspace as it was, unless it empties a page
  whose new text has no UTF-8 form.
-/
import SvgDeck.Proofs.Change
import SvgDeck.Proofs.Load
import SvgDeck.Proofs.Page

namespace SvgDeck

variable {w : Workspace} {folder : Path} {f : Failure}

/-! ### Names -/

/-- The name of a document without its suffix, which is the title of its page. -/
def titleOf (name : Text) : Text := name.take (Path.suffixStart name)

/-- The name of the page of a document. -/
def pageName (name : Text) : Text := titleOf name ++ ".html"

/-- Whether a file of this name is a document or a picture. -/
def IsSource (name : Text) : Prop := isDocumentName name = true ∨ ∃ root, name = assetName root

theorem isName_titleOf {name : Text} (h : name.IsName) : (titleOf name).IsName :=
  h.of_subset (List.take_subset _ _)

theorem isName_pageName {name : Text} (h : name.IsName) : (pageName name).IsName :=
  Text.isName_append.mpr ⟨isName_titleOf h, by decide⟩

theorem isName_assetName {root : Text} (h : isFlowId root = true) : (assetName root).IsName := by
  refine Text.isName_append.mpr ⟨(isUnicode_of_isFlowId h).isName fun c hc hzero => ?_,
    by decide⟩
  obtain rfl : c = ⟨0, by decide⟩ := CodePoint.ext hzero
  exact not_mem_of_isFlowId h (by decide) hc

theorem val_of_toAsciiLower {c d : CodePoint} (h : c.toAsciiLower = d) :
    c.val = d.val ∨ c.val + 32 = d.val := by
  rw [CodePoint.toAsciiLower] at h
  split at h
  · exact Or.inr (congrArg CodePoint.val h)
  · exact Or.inl (congrArg CodePoint.val h)

/-- The name of a document ends in the three letters of the suffix, in either case. -/
theorem exists_of_isDocumentName {name : Text} (h : isDocumentName name = true) :
    ∃ front y m l, name = front ++ [y, m, l] ∧ (y.val = 0x79 ∨ y.val = 0x59) ∧
      (m.val = 0x6D ∨ m.val = 0x4D) ∧ (l.val = 0x6C ∨ l.val = 0x4C) := by
  rw [isDocumentName, Path.suffix_child, decide_eq_true_eq] at h
  have hname := (List.take_append_drop (Path.suffixStart name) name).symm
  generalize name.drop (Path.suffixStart name) = suffix at h hname
  obtain ⟨p, y, m, l, rfl⟩ : ∃ p y m l, suffix = [p, y, m, l] := by
    have hlength := congrArg List.length h
    rw [Text.toAsciiLower, List.length_map] at hlength
    match suffix, hlength with
    | [p, y, m, l], _ => exact ⟨p, y, m, l, rfl⟩
  simp only [Text.toAsciiLower, documentSuffix, List.map_cons, List.map_nil] at h
  obtain ⟨_, hy, hm, hl, _⟩ : p.toAsciiLower = CodePoint.ofChar '.' ∧
      y.toAsciiLower = CodePoint.ofChar 'y' ∧ m.toAsciiLower = CodePoint.ofChar 'm' ∧
      l.toAsciiLower = CodePoint.ofChar 'l' ∧ True := by
    simpa [Text.ofString] using h
  refine ⟨name.take (Path.suffixStart name) ++ [p], y, m, l, ?_, ?_, ?_, ?_⟩
  · rw [List.append_assoc]
    exact hname
  · have hval : y.val = 0x79 ∨ y.val + 32 = 0x79 := val_of_toAsciiLower hy
    omega
  · have hval : m.val = 0x6D ∨ m.val + 32 = 0x6D := val_of_toAsciiLower hm
    omega
  · have hval : l.val = 0x6C ∨ l.val + 32 = 0x6C := val_of_toAsciiLower hl
    omega

/-- The bytes of a source's name end in three letters, of which the first is no `t`. -/
theorem IsSource.exists_bytes {source : Text} (h : IsSource source) :
    ∃ front x y z, (Name.ofText source).bytes = front ++ [x, y, z] ∧ x ≠ 0x74 ∧ z < 0x80 := by
  rcases h with h | ⟨root, rfl⟩
  · obtain ⟨front, y, m, l, rfl, hy, hm, hl⟩ := exists_of_isDocumentName h
    have hletters : (Name.ofText [y, m, l]).bytes =
        [UInt8.ofNat y.val, UInt8.ofNat m.val, UInt8.ofNat l.val] := by
      show [y, m, l].flatMap CodePoint.nameBytes = _
      rw [List.flatMap_cons, List.flatMap_cons, List.flatMap_cons,
        CodePoint.nameBytes_of_lt (c := y) (by omega) (by omega),
        CodePoint.nameBytes_of_lt (c := m) (by omega) (by omega),
        CodePoint.nameBytes_of_lt (c := l) (by omega) (by omega)]
      rfl
    refine ⟨(Name.ofText front).bytes, UInt8.ofNat y.val, UInt8.ofNat m.val, UInt8.ofNat l.val,
      ?_, ?_, ?_⟩
    · rw [Name.bytes_ofText_append, hletters]
    · rcases hy with hy | hy <;> rw [hy] <;> decide
    · rcases hl with hl | hl <;> rw [hl] <;> decide
  · refine ⟨(Name.ofText root).bytes ++ [0x2E], 0x73, 0x76, 0x67, ?_, by decide, by decide⟩
    rw [assetName, Name.bytes_ofText_append, List.append_assoc]
    rfl

/-- **The page replaces no source**: not even the bytes of their names are the same. -/
theorem pageName_ne_source {name source : Text} (h : IsSource source) :
    Name.ofText (pageName name) ≠ Name.ofText source := by
  intro heq
  have hpage : (Name.ofText (pageName name)).bytes =
      ((Name.ofText (titleOf name)).bytes ++ [0x2E, 0x68]) ++ [0x74, 0x6D, 0x6C] := by
    rw [pageName, Name.bytes_ofText_append, List.append_assoc]
    rfl
  obtain ⟨front, x, y, z, hsource, hx, _⟩ := h.exists_bytes
  rw [heq, hsource] at hpage
  exact hx (List.cons.inj (List.append_inj_right' hpage rfl)).1

theorem pageName_ne_above (name : Text) : pageName name ≠ Path.above := by
  intro h
  have hlength := congrArg List.length h
  rw [pageName, List.length_append] at hlength
  have hfive : (Text.ofString ".html").length = 5 := rfl
  have htwo : Path.above.length = 2 := rfl
  omega

/-! ### Composing the page -/

theorem outputPath_child {name : Text} (h : isDocumentName name = true) :
    outputPath (folder.child name) = .ok (folder.child (pageName name)) := by
  have hne : name ≠ [] := by
    rintro rfl
    revert h
    decide
  rw [outputPath, Path.withSuffix?_child folder hne, Path.stem_child]
  rfl

section Page

variable [DataReader]

/-- A page is composed whenever the slideshow of the folder compiles. -/
theorem composePage_eq_ok {page : Path} {t : Text} :
    (composePage w folder).outcome = .ok (page, t) ↔ ∃ name d b, Compiles w folder name d b ∧
      page = folder.child (pageName name) ∧ t = b.render (titleOf name) := by
  simp only [composePage, Run.outcome_bind, bind_eq_ok, Run.outcome_ofExcept, Run.outcome_pure,
    Except.ok.injEq, Prod.mk.injEq, Prod.exists, compileFolder_eq_ok]
  constructor
  · rintro ⟨_, b, ⟨name, d, h, rfl⟩, page', hpage, rfl, rfl⟩
    rw [outputPath_child (isDocumentName_of_only h.only), Except.ok.injEq] at hpage
    exact ⟨name, d, b, h, hpage.symm, by rw [Path.stem_child]; rfl⟩
  · rintro ⟨name, d, b, h, rfl, rfl⟩
    refine ⟨_, b, ⟨name, d, h, rfl⟩, _, outputPath_child (isDocumentName_of_only h.only), rfl, ?_⟩
    rw [Path.stem_child]
    rfl

theorem composePage_eq_error :
    (composePage w folder).outcome = .error f ↔ (compileFolder w folder).outcome = .error f := by
  simp only [composePage, Run.outcome_bind, bind_eq_error, Run.outcome_ofExcept, Run.outcome_pure,
    Prod.exists, compileFolder_eq_ok]
  refine or_iff_left ?_
  rintro ⟨_, b, ⟨name, d, h, rfl⟩, herror | ⟨_, _, hcontra⟩⟩
  · rw [outputPath_child (isDocumentName_of_only h.only)] at herror
    cases herror
  · cases hcontra

/-! ### Building -/

/-- A failure before the page is composed happens without any change. -/
theorem build_of_error (h : (compileFolder w folder).outcome = .error f) :
    (build w folder).1 = w ∧ (build w folder).2.outcome = .error f := by
  have h := composePage_eq_error.mpr h
  rw [build]
  simp only [h, and_self]

section Compiled

variable {name : Text} {d : Document} {b : Bundle} {place : Location}

/-- A composed page is written as a text, and nothing happens besides. -/
theorem build_of_compiles (h : Compiles w folder name d b) :
    (build w folder).1 =
      (writeText w (folder.child (pageName name)) (b.render (titleOf name))).1 ∧
    (build w folder).2.outcome =
      (writeText w (folder.child (pageName name)) (b.render (titleOf name))).2.map
        fun _ => folder.child (pageName name) := by
  have hcompose := composePage_eq_ok.mpr ⟨name, d, b, h, rfl, rfl⟩
  rw [build]
  simp only [hcompose, true_and]
  cases (writeText w (folder.child (pageName name)) (b.render (titleOf name))).2 <;> rfl

/-- The page is an entry of the folder itself. -/
theorem Compiles.place_eq (h : Compiles w folder name d b)
    (hw : w.CanWrite (folder.child (pageName name)) place) :
    ∃ base, w.locate folder = .ok base ∧ place = base ++ [Name.ofText (pageName name)] := by
  obtain ⟨base, hl, hbase⟩ := Workspace.entry_eq_ok.mp h.found
  have hr : ¬ w.Refuses (folder.child (pageName name)) := by
    rw [Workspace.refuses_iff, hw.leads]
    simp
  have hleads := Workspace.locate_child_of_not_refuses hl hbase
    (isName_pageName (isName_of_only h.only)) (pageName_ne_above name) hr
  exact ⟨base, hl, Except.ok.inj (hw.leads.symm.trans hleads)⟩

theorem Compiles.isUnicode_iff (h : Compiles w folder name d b) :
    (b.render (titleOf name)).IsUnicode ↔
      (titleOf name).IsUnicode ∧ ∀ flow ∈ d.flows, flow.html.IsUnicode :=
  isUnicode_render_iff (isValid_of_loadDocument h.loaded) h.compiled _

/-- A page that cannot be written is a failure without any change. -/
theorem build_of_not_canWrite (h : Compiles w folder name d b)
    (hw : ¬ ∃ place, w.CanWrite (folder.child (pageName name)) place) :
    ∃ f, w.write (folder.child (pageName name)) [] = .error f ∧
      (build w folder).1 = w ∧ (build w folder).2.outcome = .error f := by
  obtain ⟨f, hf, hwrite⟩ := writeText_of_not_canWrite (t := b.render (titleOf name)) hw
  obtain ⟨hafter, houtcome⟩ := build_of_compiles h
  rw [hwrite] at hafter houtcome
  exact ⟨f, hf, hafter, houtcome⟩

/-- The page that stood there is lost if the new one has no UTF-8 form. -/
theorem build_of_not_isUnicode (h : Compiles w folder name d b)
    (hw : w.CanWrite (folder.child (pageName name)) place)
    (ht : ¬ (b.render (titleOf name)).IsUnicode) :
    ∃ u, (build w folder).2.outcome = .error (.unencodable u) ∧
      w.Replaced (build w folder).1 place (.file []) := by
  obtain ⟨u, hu, hreplaced⟩ := writeText_of_not_isUnicode hw ht
  obtain ⟨hafter, houtcome⟩ := build_of_compiles h
  rw [hu] at houtcome
  rw [hafter]
  exact ⟨u, houtcome, hreplaced⟩

theorem build_of_isUnicode (h : Compiles w folder name d b)
    (hw : w.CanWrite (folder.child (pageName name)) place)
    (ht : (b.render (titleOf name)).IsUnicode) :
    (build w folder).2.outcome = .ok (folder.child (pageName name)) ∧
      w.Replaced (build w folder).1 place
        (.file ((b.render (titleOf name)).flatMap Utf8.encodeCodePoint)) := by
  obtain ⟨hu, hreplaced⟩ := writeText_of_isUnicode hw ht
  obtain ⟨hafter, houtcome⟩ := build_of_compiles h
  rw [hu] at houtcome
  rw [hafter]
  exact ⟨houtcome, hreplaced⟩

/-- What a build makes of a workspace if it succeeds. -/
theorem build_eq_put (h : Compiles w folder name d b)
    (hw : w.CanWrite (folder.child (pageName name)) place)
    (ht : (b.render (titleOf name)).IsUnicode) :
    (build w folder).1 =
      w.put place (.file ((b.render (titleOf name)).flatMap Utf8.encodeCodePoint)) := by
  rw [(build_of_compiles h).1, writeText_eq_put hw ht]

end Compiled

/-! ### All or nothing -/

/-- `w'` is `w` with the page of a folder: the bytes of the composed page stand beside the
document, and everything else, the sources among it, is as it was. -/
def WritesPage (w : Workspace) (folder page : Path) (w' : Workspace) : Prop :=
  ∃ name d b base, Compiles w folder name d b ∧ w.locate folder = .ok base ∧
    page = folder.child (pageName name) ∧
    w.Replaced w' (base ++ [Name.ofText (pageName name)])
      (.file ((b.render (titleOf name)).flatMap Utf8.encodeCodePoint)) ∧
    ∀ place source, IsSource source →
      w'.entryAt? (place ++ [Name.ofText source]) = w.entryAt? (place ++ [Name.ofText source])

/-- A build would compose a page without UTF-8 form and empty the file in which it is to stand,
which is no empty file yet. -/
def SpoilsPage (w : Workspace) (folder : Path) : Prop :=
  ∃ name d b place, Compiles w folder name d b ∧
    w.CanWrite (folder.child (pageName name)) place ∧ w.entryAt? place ≠ some (.file []) ∧
    ¬ ((titleOf name).IsUnicode ∧ ∀ flow ∈ d.flows, flow.html.IsUnicode)

/-- A build succeeds only with a slideshow that compiles to a page that can be written. -/
theorem exists_of_build {page : Path} (h : (build w folder).2.outcome = .ok page) :
    ∃ name d b place, Compiles w folder name d b ∧
      w.CanWrite (folder.child (pageName name)) place ∧ (b.render (titleOf name)).IsUnicode ∧
      page = folder.child (pageName name) := by
  cases hcompile : (compileFolder w folder).outcome with
  | error f =>
    rw [(build_of_error hcompile).2] at h
    cases h
  | ok compiled =>
    obtain ⟨path, b⟩ := compiled
    obtain ⟨name, d, hc, rfl⟩ := compileFolder_eq_ok.mp hcompile
    by_cases hw : ∃ place, w.CanWrite (folder.child (pageName name)) place
    · obtain ⟨place, hw⟩ := hw
      by_cases ht : (b.render (titleOf name)).IsUnicode
      · rw [(build_of_isUnicode hc hw ht).1] at h
        exact ⟨name, d, b, place, hc, hw, ht, (Except.ok.inj h).symm⟩
      · obtain ⟨u, hu, _⟩ := build_of_not_isUnicode hc hw ht
        rw [hu] at h
        cases h
    · obtain ⟨f, _, _, hf⟩ := build_of_not_canWrite hc hw
      rw [hf] at h
      cases h

theorem writesPage_of_build {page : Path} (h : (build w folder).2.outcome = .ok page) :
    WritesPage w folder page (build w folder).1 := by
  obtain ⟨name, d, b, place, hc, hw, ht, rfl⟩ := exists_of_build h
  obtain ⟨_, hreplaced⟩ := build_of_isUnicode hc hw ht
  obtain ⟨base, hbase, rfl⟩ := hc.place_eq hw
  refine ⟨name, d, b, base, hc, hbase, rfl, hreplaced, ?_⟩
  intro place source hsource
  refine hreplaced.elsewhere _ fun heq => ?_
  -- The last names would be the same.
  have hlast := congrArg List.getLast? heq
  rw [List.getLast?_concat, List.getLast?_concat, Option.some.injEq] at hlast
  exact pageName_ne_source hsource hlast.symm

theorem agree_build_iff (h : (build w folder).2.outcome = .error f) :
    w.Agree (build w folder).1 ↔ ¬ SpoilsPage w folder := by
  cases hcompile : (compileFolder w folder).outcome with
  | error f =>
    rw [(build_of_error hcompile).1]
    refine iff_of_true (Workspace.Agree.refl w) ?_
    rintro ⟨name, d, b, place, hc, _⟩
    rw [compileFolder_eq_ok.mpr ⟨name, d, hc, rfl⟩] at hcompile
    cases hcompile
  | ok compiled =>
    obtain ⟨path, b⟩ := compiled
    obtain ⟨name, d, hc, rfl⟩ := compileFolder_eq_ok.mp hcompile
    -- A folder has one slideshow, so what is spoiled is the page of this document.
    have hsame : SpoilsPage w folder ↔ ∃ place,
        w.CanWrite (folder.child (pageName name)) place ∧ w.entryAt? place ≠ some (.file []) ∧
          ¬ (b.render (titleOf name)).IsUnicode := by
      constructor
      · rintro ⟨name', d', b', place, hc', hw, hfull, hbad⟩
        obtain ⟨rfl, rfl, rfl⟩ := hc.unique hc'
        exact ⟨place, hw, hfull, fun ht => hbad (hc.isUnicode_iff.mp ht)⟩
      · rintro ⟨place, hw, hfull, ht⟩
        exact ⟨name, d, b, place, hc, hw, hfull, fun hbad => ht (hc.isUnicode_iff.mpr hbad)⟩
    rw [hsame]
    by_cases hw : ∃ place, w.CanWrite (folder.child (pageName name)) place
    · obtain ⟨place, hw⟩ := hw
      have ht : ¬ (b.render (titleOf name)).IsUnicode := by
        intro ht
        rw [(build_of_isUnicode hc hw ht).1] at h
        cases h
      obtain ⟨_, _, hreplaced⟩ := build_of_not_isUnicode hc hw ht
      rw [hreplaced.agree_iff]
      -- Emptying the page is a change unless it was empty before.
      constructor
      · rintro hempty ⟨place', hw', hfull, _⟩
        cases hw.leads.symm.trans hw'.leads
        exact hfull hempty
      · intro hspoils
        by_contra hfull
        exact hspoils ⟨place, hw, hfull, ht⟩
    · obtain ⟨_, _, hafter, _⟩ := build_of_not_canWrite hc hw
      rw [hafter]
      refine iff_of_true (Workspace.Agree.refl w) ?_
      rintro ⟨place, hw', _⟩
      exact hw ⟨place, hw'⟩

end Page

end SvgDeck
