/-
Finding the document of a folder.

What counts is a regular file that stands in the folder itself, under a name that ends in the
suffix of documents, in any case, with something before it (`IsMatch`).  A search answers by the
matches alone, whatever else the folder holds and in whatever order its entries are listed, with one
exception: it looks up every entry, so it breaks off at a path that is too long.

* `findDocument_answers_iff` — there is no other exception, and the page of what is found stands
  beside it under a name that no document and no picture has.
-/
import SvgDeck.Proofs.Inputs

namespace SvgDeck

open CommandLine (plainTalk)

variable {w w' : Workspace} {folder p : Path} {base : Location} {name : Text}

/-! ### Names of documents -/

theorem CodePoint.eq_point_of_toAsciiLower {c : CodePoint}
    (h : c.toAsciiLower = CodePoint.ofChar '.') : c = CodePoint.ofChar '.' := by
  rw [toAsciiLower] at h
  split at h
  · next hupper =>
    -- A small letter is no point.
    have hval := congrArg CodePoint.val h
    have hpoint : (CodePoint.ofChar '.').val = 0x2E := rfl
    simp only [isAsciiUpper, isBetween, Bool.and_eq_true, decide_eq_true_eq] at hupper
    simp only [hpoint] at hval
    omega
  · exact h

/-- The suffix of a document is a point and three letters. -/
theorem exists_of_toAsciiLower_eq {suffix : Text} (h : suffix.toAsciiLower = documentSuffix) :
    ∃ letters, suffix = CodePoint.ofChar '.' :: letters ∧ letters ≠ [] ∧
      CodePoint.ofChar '.' ∉ letters := by
  cases suffix with
  | nil => cases h
  | cons c letters =>
    obtain ⟨hc, hletters⟩ := List.cons_eq_cons.mp h
    refine ⟨letters, by rw [CodePoint.eq_point_of_toAsciiLower hc], ?_, fun hpoint => ?_⟩
    · rintro rfl
      cases hletters
    · have hmem : CodePoint.ofChar '.' ∈ letters.map CodePoint.toAsciiLower :=
        List.mem_map.mpr ⟨_, hpoint, rfl⟩
      rw [hletters] at hmem
      revert hmem
      decide

/-- Only an empty name begins with its suffix. -/
theorem eq_nil_of_suffixStart (h : Path.suffixStart name = 0) : name = [] := by
  rw [Path.suffixStart] at h
  split at h
  · exact List.length_eq_zero_iff.mp h
  · next hstart => exact absurd (Or.inr h) hstart

theorem titleOf_ne_nil (h : isDocumentName name = true) : titleOf name ≠ [] := by
  intro htitle
  obtain rfl : name = [] := (List.take_eq_nil_iff.mp htitle).elim eq_nil_of_suffixStart id
  revert h
  decide

/-- **A name is that of a document** if it ends in the suffix and is not the suffix alone. -/
theorem isDocumentName_iff : isDocumentName name = true ↔
    ∃ stem suffix : Text, stem ≠ [] ∧ suffix.toAsciiLower = documentSuffix ∧
      name = stem ++ suffix := by
  constructor
  · intro h
    have hsuffix := h
    rw [isDocumentName, Path.suffix_child, decide_eq_true_eq] at hsuffix
    exact ⟨titleOf name, _, titleOf_ne_nil h, hsuffix, (List.take_append_drop _ _).symm⟩
  · rintro ⟨stem, suffix, hstem, hsuffix, rfl⟩
    obtain ⟨letters, rfl, hne, hpoint⟩ := exists_of_toAsciiLower_eq hsuffix
    rwa [isDocumentName, Path.suffix_child, decide_eq_true_eq,
      Path.suffixStart_append hstem hne hpoint, List.drop_left]

/-! ### Trees -/

namespace Workspace

/-- No two entries have the same place. -/
def IsTree (w : Workspace) : Prop := (w.entries.map Prod.fst).Nodup

instance (w : Workspace) : Decidable w.IsTree :=
  inferInstanceAs (Decidable (w.entries.map Prod.fst).Nodup)

/-- Putting something into a place adds it or replaces what stood there. -/
theorem IsTree.put (h : w.IsTree) (place : Location) (e : Entry) : (w.put place e).IsTree := by
  rw [IsTree, Workspace.put]
  simp only
  split
  · have hplaces : (w.entries.map fun x => if x.1 = place then (place, e) else x).map Prod.fst =
        w.entries.map Prod.fst := by
      rw [List.map_map]
      refine List.map_congr_left fun x _ => ?_
      by_cases hx : x.1 = place
      · simp [hx]
      · simp [hx]
    rwa [hplaces]
  · next hfree =>
    rw [List.map_append, List.nodup_append]
    refine ⟨h, List.nodup_singleton _, fun q hq q' hq' => ?_⟩
    obtain rfl : q' = place := List.mem_singleton.mp hq'
    rintro rfl
    obtain ⟨x, hx, rfl⟩ := List.mem_map.mp hq
    refine hfree (Option.isSome_iff_ne_none.mpr fun hnone => ?_)
    simpa using List.lookup_eq_none_iff.mp hnone x hx

/-- The names in a folder are different. -/
theorem IsTree.nodup_namesIn (h : w.IsTree) (base : Location) : (w.namesIn base).Nodup := by
  have hnames : w.namesIn base = (w.entries.map Prod.fst).filterMap fun q =>
      if q ≠ [] ∧ q.dropLast = base then q.getLast?.map Name.text else none := by
    rw [namesIn, List.filterMap_map]
    rfl
  rw [hnames]
  -- A shown name and its folder give the place, so no two places give one name.
  refine h.filterMap fun q q' name hq hq' => ?_
  have hplace : ∀ {q : Location},
      name ∈ (if q ≠ [] ∧ q.dropLast = base then q.getLast?.map Name.text else none) →
        ∃ n : Name, n.text = name ∧ q = base ++ [n] := by
    intro q hq
    split at hq
    · next hbase =>
      obtain ⟨n, hlast, htext⟩ := Option.mem_map.mp hq
      obtain ⟨front, rfl⟩ := List.getLast?_eq_some_iff.mp hlast
      exact ⟨n, htext, by rw [← hbase.2, List.dropLast_concat]⟩
    · cases hq
  obtain ⟨n, hn, rfl⟩ := hplace hq
  obtain ⟨n', hn', rfl⟩ := hplace hq'
  rw [Name.text_injective (hn.trans hn'.symm)]

/-- What is looked up in two workspaces that show the same is found in both. -/
theorem Agree.walk (h : w.Agree w') (place : Location) (parts : List Text) :
    w'.walk place parts = w.walk place parts := by
  induction parts generalizing place with
  | nil => rfl
  | cons part parts ih => simp only [Workspace.walk, h.2, ih]

theorem Agree.locate (h : w.Agree w') (p : Path) : w'.locate p = w.locate p := by
  simp only [Workspace.locate, h.1, h.walk]

theorem Agree.entry (h : w.Agree w') (p : Path) : w'.entry p = w.entry p := by
  simp only [Workspace.entry, h.locate, h.2]

end Workspace

/-! ### Matches -/

/-- A regular file stands in the folder, under a name that is shown with the suffix of documents at
its end, in any case, and something before it. -/
structure IsMatch (w : Workspace) (base : Location) (name : Text) : Prop where
  file : ∃ n bytes, n.text = name ∧ w.entryAt? (base ++ [n]) = some (.file bytes)
  suffix : ∃ stem suffix : Text, stem ≠ [] ∧ suffix.toAsciiLower = documentSuffix ∧
    name = stem ++ suffix

/-- The names are all matches, each once and in order. -/
structure ListsMatches (w : Workspace) (base : Location) (names : List Text) : Prop where
  mem_iff : ∀ name, name ∈ names ↔ IsMatch w base name
  nodup : names.Nodup
  sorted : names.Pairwise fun s t => Text.le s t = true

/-- The path leads to a folder, which stands in this place. -/
def LeadsTo (w : Workspace) (folder : Path) (base : Location) : Prop :=
  w.locate folder = .ok base ∧ w.entryAt? base = some .folder

section Matches

variable {names names' : List Text}

theorem exists_leadsTo : (∃ base, LeadsTo w folder base) ↔ w.entry folder = .ok .folder :=
  Workspace.entry_eq_ok.symm

theorem LeadsTo.unique {base' : Location} (h : LeadsTo w folder base)
    (h' : LeadsTo w folder base') : base = base' := Except.ok.inj (h.1.symm.trans h'.1)

theorem mem_documentsIn : name ∈ documentsIn w base ↔ IsMatch w base name := by
  rw [documentsIn, List.mem_filter, CommandLine.hasDocument, Bool.and_eq_true, isDocumentName_iff]
  constructor
  · rintro ⟨hmem, hsuffix, hfile⟩
    obtain ⟨n, _, htext, _⟩ := Workspace.mem_namesIn.mp hmem
    rw [← htext, n.ofText_text] at hfile
    refine ⟨?_, hsuffix⟩
    split at hfile
    · next bytes hbytes => exact ⟨n, bytes, htext, hbytes⟩
    · cases hfile
  · rintro ⟨⟨n, bytes, rfl, hbytes⟩, hsuffix⟩
    refine ⟨Workspace.mem_namesIn_of_entryAt? hbytes, hsuffix, ?_⟩
    rw [n.ofText_text, hbytes]

/-- There is only one list of the matches. -/
theorem ListsMatches.unique (h : ListsMatches w base names) (h' : ListsMatches w base names') :
    names = names' := by
  have hperm : names.Perm names' := (List.perm_ext_iff_of_nodup h.nodup h'.nodup).mpr fun n =>
    (h.mem_iff n).trans (h'.mem_iff n).symm
  exact hperm.eq_of_pairwise (fun _ _ _ _ => Text.le_antisymm) h.sorted h'.sorted

theorem listsMatches_documentsIn (hw : w.IsTree) (base : Location) :
    ListsMatches w base ((documentsIn w base).mergeSort Text.le) := by
  have hperm := List.mergeSort_perm (documentsIn w base) Text.le
  exact ⟨fun n => hperm.mem_iff.trans mem_documentsIn,
    hperm.nodup_iff.mpr ((hw.nodup_namesIn base).filter _), Text.pairwise_mergeSort _⟩

/-- One name is the list exactly if it is the only match. -/
theorem listsMatches_singleton :
    ListsMatches w base [name] ↔ ∀ n, IsMatch w base n ↔ n = name := by
  constructor
  · exact fun h n => (h.mem_iff n).symm.trans List.mem_singleton
  · exact fun h => ⟨fun n => List.mem_singleton.trans (h n).symm, List.nodup_singleton _,
      List.pairwise_singleton _ _⟩

end Matches

/-! ### Searches -/

/-- The search breaks off: the path to the folder is too long, or that to something in it. -/
def BreaksOff (w : Workspace) (folder : Path) : Prop :=
  w.Refuses folder ∨ w.entry folder = .ok .folder ∧ RefusesEntry w folder

/-- The search answers by the matches: it returns the only one, or reports that the folder is
missing, or lists all matches if there is none or more than one. -/
structure AnswersByMatches (w : Workspace) (folder : Path) : Prop where
  found : ∀ p, (findDocument w folder).outcome = .ok p ↔ ∃ base name, LeadsTo w folder base ∧
    (∀ n, IsMatch w base n ↔ n = name) ∧ p = folder.child name
  missing : (findDocument w folder).outcome = .error (.reported (.folderNotFound folder.text)) ↔
    ¬ ∃ base, LeadsTo w folder base
  notSingle : ∀ names, (findDocument w folder).outcome =
      .error (.reported (.noSingleDocument folder.text names)) ↔
    ∃ base, LeadsTo w folder base ∧ ListsMatches w base names ∧ names.length ≠ 1
  noOther : ∀ f, (findDocument w folder).outcome = .error f →
    f = .reported (.folderNotFound folder.text) ∨
      ∃ names, f = .reported (.noSingleDocument folder.text names)
  /-- The order in which the entries are listed does not count. -/
  unordered : ∀ w', w.Agree w' → w'.IsTree →
    (findDocument w' folder).outcome = (findDocument w folder).outcome

section Searches

theorem findDocument_of_missing (hr : ¬ w.Refuses folder) (h : w.entry folder ≠ .ok .folder) :
    (findDocument w folder).outcome = .error (.reported (.folderNotFound folder.text)) :=
  findDocument_eq_error.mpr (Or.inl (requireFolder_eq_error.mpr (Or.inr ⟨hr, h, rfl⟩)))

section Folder

variable {names : List Text}

theorem documentNames_of_listsMatches (hw : w.IsTree) (hl : LeadsTo w folder base)
    (hr : ¬ RefusesEntry w folder) (h : ListsMatches w base names) :
    documentNames w folder = .ok names := by
  rw [documentNames_of_not_refuses hl.1 hl.2 hr, h.unique (listsMatches_documentsIn hw base)]

theorem findDocument_of_single (hw : w.IsTree) (hl : LeadsTo w folder base)
    (hr : ¬ RefusesEntry w folder) (h : ListsMatches w base [name]) :
    (findDocument w folder).outcome = .ok (folder.child name) :=
  findDocument_eq_ok.mpr ⟨exists_leadsTo.mp ⟨base, hl⟩, name,
    documentNames_of_listsMatches hw hl hr h, rfl⟩

theorem findDocument_of_not_single (hw : w.IsTree) (hl : LeadsTo w folder base)
    (hr : ¬ RefusesEntry w folder) (h : ListsMatches w base names) (hn : names.length ≠ 1) :
    (findDocument w folder).outcome =
      .error (.reported (.noSingleDocument folder.text names)) := by
  refine findDocument_eq_error.mpr (Or.inr ⟨exists_leadsTo.mp ⟨base, hl⟩, Or.inr ⟨names,
    documentNames_of_listsMatches hw hl hr h, ?_, rfl⟩⟩)
  rintro name rfl
  exact hn rfl

/-- A search that does not break off has one of three ends. -/
inductive Ends (w : Workspace) (folder : Path) : Except Failure Path → Prop
  | found {base : Location} {name : Text} (leads : LeadsTo w folder base)
      (h : ListsMatches w base [name]) : Ends w folder (.ok (folder.child name))
  | missing (h : ¬ ∃ base, LeadsTo w folder base) :
      Ends w folder (.error (.reported (.folderNotFound folder.text)))
  | notSingle {base : Location} {names : List Text} (leads : LeadsTo w folder base)
      (h : ListsMatches w base names) (length : names.length ≠ 1) :
      Ends w folder (.error (.reported (.noSingleDocument folder.text names)))

theorem ends_of_not_breaksOff (hw : w.IsTree) (h : ¬ BreaksOff w folder) :
    Ends w folder (findDocument w folder).outcome := by
  rw [BreaksOff, not_or, not_and] at h
  by_cases hfolder : w.entry folder = .ok .folder
  · obtain ⟨base, hl⟩ := exists_leadsTo.mpr hfolder
    have hr := h.2 hfolder
    -- From here on only the list of the matches counts, not how it was come by.
    have hlists := listsMatches_documentsIn hw base
    generalize (documentsIn w base).mergeSort Text.le = names at hlists
    by_cases hn : names.length = 1
    · obtain ⟨name, rfl⟩ := List.length_eq_one_iff.mp hn
      rw [findDocument_of_single hw hl hr hlists]
      exact .found hl hlists
    · rw [findDocument_of_not_single hw hl hr hlists hn]
      exact .notSingle hl hlists hn
  · rw [findDocument_of_missing h.1 hfolder]
    exact .missing fun hl => hfolder (exists_leadsTo.mp hl)

/-- The end of a search is determined by what the workspace shows. -/
theorem Ends.unique {x y : Except Failure Path} (hx : Ends w folder x) (hy : Ends w folder y) :
    x = y := by
  cases hx with
  | @found base name hl h =>
    cases hy with
    | @found base' name' hl' h' =>
      obtain rfl := hl.unique hl'
      rw [List.singleton_inj.mp (h.unique h')]
    | missing hnone => exact absurd ⟨base, hl⟩ hnone
    | @notSingle base' names hl' h' hn =>
      obtain rfl := hl.unique hl'
      exact absurd (congrArg List.length (h'.unique h)) hn
  | missing hnone =>
    cases hy with
    | @found base name hl => exact absurd ⟨base, hl⟩ hnone
    | missing => rfl
    | @notSingle base names hl => exact absurd ⟨base, hl⟩ hnone
  | @notSingle base names hl h hn =>
    cases hy with
    | @found base' name hl' h' =>
      obtain rfl := hl.unique hl'
      exact absurd (congrArg List.length (h.unique h')) hn
    | missing hnone => exact absurd ⟨base, hl⟩ hnone
    | @notSingle base' names' hl' h' =>
      obtain rfl := hl.unique hl'
      rw [h.unique h']

end Folder

/-! ### Workspaces that show the same -/

section Agree

theorem Workspace.Agree.leadsTo (h : w.Agree w') : LeadsTo w' folder base ↔ LeadsTo w folder base := by
  rw [LeadsTo, LeadsTo, h.locate, h.2]

theorem Workspace.Agree.isMatch (h : w.Agree w') : IsMatch w' base name ↔ IsMatch w base name := by
  have hfile : ∀ n : Name, w'.entryAt? (base ++ [n]) = w.entryAt? (base ++ [n]) := fun n => h.2 _
  constructor
  · rintro ⟨⟨n, bytes, htext, hbytes⟩, hsuffix⟩
    exact ⟨⟨n, bytes, htext, hfile n ▸ hbytes⟩, hsuffix⟩
  · rintro ⟨⟨n, bytes, htext, hbytes⟩, hsuffix⟩
    exact ⟨⟨n, bytes, htext, (hfile n).symm ▸ hbytes⟩, hsuffix⟩

theorem Workspace.Agree.ends {x : Except Failure Path} (h : w.Agree w') (hx : Ends w' folder x) :
    Ends w folder x := by
  have hlists : ∀ {base names}, ListsMatches w' base names → ListsMatches w base names :=
    fun hm => ⟨fun n => (hm.mem_iff n).trans h.isMatch, hm.nodup, hm.sorted⟩
  cases hx with
  | found hl hm => exact .found (h.leadsTo.mp hl) (hlists hm)
  | missing hnone => exact .missing fun ⟨base, hl⟩ => hnone ⟨base, h.leadsTo.mpr hl⟩
  | notSingle hl hm hn => exact .notSingle (h.leadsTo.mp hl) (hlists hm) hn

/-- What stands in a folder is found in any order. -/
theorem Workspace.Agree.mem_names (h : w.Agree w') (hl : LeadsTo w folder base) :
    name ∈ w'.names folder → name ∈ w.names folder := by
  intro hname
  rw [names_of_locate (h.leadsTo.mpr hl).1] at hname
  obtain ⟨hshown, e, he⟩ := exists_entryAt?_of_mem_namesIn hname
  rw [h.2] at he
  rw [names_of_locate hl.1, ← hshown]
  exact mem_namesIn_of_entryAt? he

theorem Workspace.Agree.breaksOff (h : w.Agree w') (hb : BreaksOff w' folder) :
    BreaksOff w folder := by
  rcases hb with hr | ⟨hfolder, name, hname, hr⟩
  · exact Or.inl ((h.entry _).symm.trans hr)
  · rw [h.entry] at hfolder
    obtain ⟨base, hl⟩ := exists_leadsTo.mpr hfolder
    exact Or.inr ⟨hfolder, name, h.mem_names hl hname, (h.entry _).symm.trans hr⟩

end Agree

theorem answersByMatches_of_not_breaksOff (hw : w.IsTree) (h : ¬ BreaksOff w folder) :
    AnswersByMatches w folder := by
  -- Each condition is read off from the end of the search; the other way round ends are unique.
  have hends := ends_of_not_breaksOff hw h
  constructor
  case found =>
    intro p
    constructor
    · intro hp
      rw [hp] at hends
      cases hends with
      | @found base name hl hm => exact ⟨base, name, hl, listsMatches_singleton.mp hm, rfl⟩
    · rintro ⟨base, name, hl, hm, rfl⟩
      exact hends.unique (.found hl (listsMatches_singleton.mpr hm))
  case missing =>
    constructor
    · intro hf
      rw [hf] at hends
      cases hends with
      | missing hnone => exact hnone
    · exact fun hnone => hends.unique (.missing hnone)
  case notSingle =>
    intro names
    constructor
    · intro hf
      rw [hf] at hends
      cases hends with
      | @notSingle base names hl hm hn => exact ⟨base, hl, hm, hn⟩
    · rintro ⟨base, hl, hm, hn⟩
      exact hends.unique (.notSingle hl hm hn)
  case noOther =>
    intro f hf
    rw [hf] at hends
    cases hends with
    | missing _ => exact Or.inl rfl
    | notSingle _ _ _ => exact Or.inr ⟨_, rfl⟩
  case unordered =>
    intro w' hagree hw'
    have hends' := ends_of_not_breaksOff hw' fun hb => h (hagree.breaksOff hb)
    exact (hagree.ends hends').unique hends

/-- A search that breaks off has another failure than all answers. -/
theorem not_answersByMatches_of_breaksOff (h : BreaksOff w folder) :
    ¬ AnswersByMatches w folder := by
  intro hanswers
  have hfails : ∃ t, (findDocument w folder).outcome = .error (.path .nameTooLong t) := by
    rcases h with hr | ⟨hfolder, hentry⟩
    · exact ⟨_, findDocument_eq_error.mpr (Or.inl (requireFolder_of_refuses hr))⟩
    · obtain ⟨name, hname⟩ := exists_isFirst hentry
      exact ⟨_, findDocument_eq_error.mpr (Or.inr ⟨hfolder, Or.inl
        (documentNames_eq_error.mpr ⟨name, hname, rfl⟩)⟩)⟩
  obtain ⟨t, ht⟩ := hfails
  rcases hanswers.noOther _ ht with hf | ⟨names, hf⟩ <;> cases hf

/-! ### The page beside the document -/

/-- The page stands in the folder of its document, under the document's stem, and is no document
and no picture. -/
structure IsBeside (page document : Path) : Prop where
  parent : page.parent = document.parent
  stem : page.stem = document.stem
  suffix : page.suffix = Text.ofString ".html"
  ne_source : ∀ source : Path,
    source.suffix.toAsciiLower ∈ [Text.ofString ".yml", Text.ofString ".svg"] → page ≠ source
  ne_document : page ≠ document

theorem isBeside_pageName (h : isDocumentName name = true) :
    IsBeside (folder.child (pageName name)) (folder.child name) := by
  have hstart : Path.suffixStart (pageName name) = (titleOf name).length :=
    Path.suffixStart_append (titleOf_ne_nil h) (by decide) (by decide)
  have hsuffix : (folder.child (pageName name)).suffix = Text.ofString ".html" := by
    rw [Path.suffix_child, hstart]
    exact List.drop_left
  have hsource : ∀ source : Path,
      source.suffix.toAsciiLower ∈ [Text.ofString ".yml", Text.ofString ".svg"] →
        folder.child (pageName name) ≠ source := by
    rintro source hs rfl
    rw [hsuffix] at hs
    revert hs
    decide
  constructor
  case parent => rw [Path.parent_child, Path.parent_child]
  case stem =>
    rw [Path.stem_child, Path.stem_child, hstart]
    exact List.take_left
  case suffix => exact hsuffix
  case ne_source => exact hsource
  case ne_document =>
    rw [isDocumentName, Path.suffix_child, decide_eq_true_eq] at h
    refine hsource _ ?_
    rw [Path.suffix_child, h]
    exact List.mem_cons_self

end Searches

/-- **A search answers by the matches** unless it breaks off, and in no other case.  The page of
what is found stands beside it. -/
theorem findDocument_answers_iff (hw : w.IsTree) (folder : Path) :
    (AnswersByMatches w folder ↔ ¬ BreaksOff w folder) ∧
    ∀ p, (findDocument w folder).outcome = .ok p → p.parent = folder ∧
      ∃ page, outputPath p = .ok page ∧ IsBeside page p := by
  refine ⟨⟨fun h hb => not_answersByMatches_of_breaksOff hb h,
    answersByMatches_of_not_breaksOff hw⟩, fun p hp => ?_⟩
  obtain ⟨_, name, honly, rfl⟩ := findDocument_eq_ok.mp hp
  have hname := isDocumentName_of_only honly
  exact ⟨Path.parent_child _ _, _, outputPath_child hname, isBeside_pageName hname⟩

/-- A talk beside a file that is called as the suffix alone, a copy, and a folder with a document of
its own. -/
def mixedTalk : Workspace :=
  (((plainTalk.put [Text.ofString "talk", Text.ofString ".yml"] (fileOf "")).put
    [Text.ofString "talk", Text.ofString "talk.yml.bak"] (fileOf "")).put
    [Text.ofString "talk", Text.ofString "old.yml"] .folder).put
    [Text.ofString "talk", Text.ofString "old.yml", Text.ofString "old.yml"] (fileOf "")

theorem findDocument_answers_iff_mixedTalk :
    mixedTalk.IsTree ∧ AnswersByMatches mixedTalk (.ofText "talk") ∧
      (findDocument mixedTalk (.ofText "talk")).outcome =
        .ok ((Path.ofText "talk").child "talk.yml") ∧
      ∃ page, outputPath ((Path.ofText "talk").child "talk.yml") = .ok page ∧
        IsBeside page ((Path.ofText "talk").child "talk.yml") := by
  have hw : mixedTalk.IsTree := by decide +kernel
  have hb : ¬ BreaksOff mixedTalk (.ofText "talk") := by
    rw [BreaksOff]
    decide +kernel
  have hfound : (findDocument mixedTalk (.ofText "talk")).outcome =
      .ok ((Path.ofText "talk").child "talk.yml") := toOption_eq_some.mp (by decide +kernel)
  obtain ⟨hanswers, hpage⟩ := findDocument_answers_iff hw (.ofText "talk")
  exact ⟨hw, hanswers.mpr hb, hfound, (hpage _ hfound).2⟩

/-- A path to nothing, of one name that is too long. -/
def longFolder : Path := .ofText (List.replicate 256 (CodePoint.ofChar 'a'))

/-- No folder is there, and the search does not report that. -/
theorem longFolder_not_answersByMatches :
    (Workspace.mk [] []).IsTree ∧ (¬ ∃ base, LeadsTo (Workspace.mk [] []) longFolder base) ∧
      (findDocument (Workspace.mk [] []) longFolder).outcome ≠
        .error (.reported (.folderNotFound longFolder.text)) ∧
      ¬ AnswersByMatches (Workspace.mk [] []) longFolder := by
  have hr : (Workspace.mk [] []).Refuses longFolder := by decide +kernel
  have hfind := findDocument_eq_error.mpr (Or.inl (requireFolder_of_refuses hr))
  refine ⟨by decide, fun h => ?_, ?_, not_answersByMatches_of_breaksOff (Or.inl hr)⟩
  · have hfolder := exists_leadsTo.mp h
    rw [Workspace.Refuses, hfolder] at hr
    cases hr
  · rw [hfind]
    simp

end SvgDeck
