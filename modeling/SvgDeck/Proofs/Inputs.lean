/-
What a slideshow is compiled from.

Compiling a folder reads its only document and the pictures that the document shows.  Two
workspaces that have these in common (`SameInputs`) end in the same way, whatever else stands in
them.  There is one exception: all that stands in the folder is looked up, and the first path that
is too long decides (`compileFolder_of_refusedIn`), even that of a file which is no part of the
slideshow (`crowdedTalk_compiles_otherwise`).

The page is no input (`sameInputs_put`), so building a second time changes nothing.

* `compileFolder_inputs` — there is no other exception, and a second build writes what stands there.
-/
import SvgDeck.Proofs.Agreement

namespace SvgDeck

open CommandLine (hasDocument hasDocument_eq plainTalk crowdedTalk longName detour)

/-! ### Names in order -/

namespace Text

theorem le_total (s t : Text) : (le s t || le t s) = true := by
  induction s generalizing t with
  | nil => rfl
  | cons a s ih =>
    cases t with
    | nil => rfl
    | cons b t =>
      rcases Nat.lt_trichotomy a.val b.val with h | h | h
      · simp [le, h]
      · simpa [le, h] using ih t
      · simp [le, h]

theorem le_trans {s t u : Text} (hst : le s t = true) (htu : le t u = true) : le s u = true := by
  induction s generalizing t u with
  | nil => rfl
  | cons a s ih =>
    cases t with
    | nil => cases hst
    | cons b t =>
      cases u with
      | nil => cases htu
      | cons c u =>
        simp only [le, Bool.or_eq_true, decide_eq_true_eq, Bool.and_eq_true, beq_iff_eq] at *
        rcases hst with hab | ⟨hab, hst⟩
        · exact Or.inl (by omega)
        · rcases htu with hbc | ⟨hbc, htu⟩
          · exact Or.inl (by omega)
          · exact Or.inr ⟨by omega, ih hst htu⟩

theorem le_antisymm {s t : Text} (hst : le s t = true) (hts : le t s = true) : s = t := by
  induction s generalizing t with
  | nil =>
    cases t with
    | nil => rfl
    | cons b t => cases hts
  | cons a s ih =>
    cases t with
    | nil => cases hst
    | cons b t =>
      simp only [le, Bool.or_eq_true, decide_eq_true_eq, Bool.and_eq_true, beq_iff_eq] at *
      obtain hab : a.val = b.val := by omega
      have hs : le s t = true := by
        rcases hst with h | h
        · omega
        · exact h.2
      have ht : le t s = true := by
        rcases hts with h | h
        · omega
        · exact h.2
      rw [CodePoint.ext hab, ih hs ht]

theorem pairwise_mergeSort : ∀ l : List Text, (l.mergeSort le).Pairwise (le · · = true) :=
  List.pairwise_mergeSort (fun _ _ _ => le_trans) le_total

/-- The order of names does not depend on where they come from. -/
theorem mergeSort_congr {l u : List Text} (h : l.Perm u) : l.mergeSort le = u.mergeSort le := by
  have hperm : (l.mergeSort le).Perm (u.mergeSort le) :=
    (List.mergeSort_perm l le).trans (h.trans (List.mergeSort_perm u le).symm)
  exact hperm.eq_of_pairwise (fun _ _ _ _ => le_antisymm) (pairwise_mergeSort l)
    (pairwise_mergeSort u)

end Text

variable {w w' : Workspace} {folder p : Path} {base : Location} {d : Document}

/-! ### What is read -/

theorem loadDocument_congr [DataReader] (h : w'.entry p = w.entry p) : loadDocument w' p = loadDocument w p := by
  simp only [loadDocument, Workspace.exists?, Workspace.entry?, Workspace.read, h]

theorem absent_congr {paths : List Path} (hcurrent : w'.current = w.current)
    (h : ∀ p ∈ paths, w'.entry p = w.entry p) : absent w' paths = absent w paths := by
  have habsence : ∀ p ∈ paths, absence w' p = absence w p := by
    intro p hp
    simp only [absence, Workspace.exists?, Workspace.entry?, h p hp, Workspace.shown, hcurrent]
  rw [absent, absent, mapM_congr habsence]

theorem fragment_congr {root : Text}
    (h : w'.entry (assetPath folder root) = w.entry (assetPath folder root)) :
    fragment w' folder root = fragment w folder root := by
  simp only [fragment, readAsset, Workspace.read, h]

section Pictures

variable {folder : FolderName}

theorem buildFragments_congr {roots : List Text} (hn : roots.Nodup)
    (hcurrent : w'.current = w.current)
    (h : ∀ root ∈ roots,
      w'.entry (assetPath folder.path root) = w.entry (assetPath folder.path root)) :
    (buildFragments w' folder roots).outcome = (buildFragments w folder roots).outcome := by
  have hresolve :
      (resolveAssets w' folder roots).outcome = (resolveAssets w folder roots).outcome := by
    rw [outcome_resolveAssets hn, outcome_resolveAssets hn,
      absent_congr hcurrent (List.forall_mem_map.mpr h)]
  simp only [buildFragments, Text.distinct_of_nodup hn, Run.outcome_bind, hresolve]
  cases hpaths : (resolveAssets w folder roots).outcome with
  | error f => rfl
  | ok paths =>
    obtain ⟨_, _, rfl⟩ := (resolveAssets_eq_ok hn).mp hpaths
    simp only [ok_bind, outcome_buildEach, mapM_congr fun root hroot => fragment_congr (h root hroot)]

theorem compileDocument_congr (hcurrent : w'.current = w.current)
    (h : ∀ root ∈ d.pictures,
      w'.entry (assetPath folder.path root) = w.entry (assetPath folder.path root)) :
    (compileDocument w' d folder).outcome = (compileDocument w d folder).outcome := by
  rw [outcome_compileDocument, outcome_compileDocument,
    buildFragments_congr (nodup_pictures d) hcurrent h]

end Pictures

/-! ### Paths that are too long -/

/-- The first name in a folder with a path that is too long to be looked up. -/
def refusedIn (w : Workspace) (folder : Path) : Option Text :=
  (w.names folder).find? fun name => w.Refuses (folder.child name)

theorem refusedIn_eq_none : refusedIn w folder = none ↔ ¬ RefusesEntry w folder := by
  simp [refusedIn, RefusesEntry]

theorem refusedIn_eq_some {name : Text} :
    refusedIn w folder = some name ↔
      IsFirst (fun n => w.Refuses (folder.child n)) (w.names folder) name := by
  rw [refusedIn, List.find?_eq_some_iff_append, IsFirst]
  simp only [decide_eq_true_eq, Bool.not_eq_true', decide_eq_false_iff_not]
  constructor
  · rintro ⟨hname, before, after, hl, hbefore⟩
    exact ⟨before, after, hl, hname, hbefore⟩
  · rintro ⟨before, after, hl, hname, hbefore⟩
    exact ⟨hname, before, after, hl, hbefore⟩

/-- The first path that is too long decides, whatever stands there. -/
theorem compileFolder_of_refusedIn [DataReader] {name : Text} (hfolder : w.entry folder = .ok .folder)
    (h : refusedIn w folder = some name) :
    (compileFolder w folder).outcome =
      .error (.path .nameTooLong (folder.child name).text) := by
  have hnames := documentNames_eq_error.mpr ⟨name, refusedIn_eq_some.mp h, rfl⟩
  have hfind := findDocument_eq_error.mpr (Or.inr ⟨hfolder, Or.inl hnames⟩)
  exact compileFolder_eq_error.mpr (Or.inl hfind)

theorem Path.text_child_injective {name name' : Text}
    (h : (folder.child name).text = (folder.child name').text) : name = name' := by
  obtain ⟨front, hfront⟩ := Path.exists_text_eq folder.anchor folder.parts
  rw [Path.child, Path.child, hfront, hfront] at h
  exact List.append_cancel_left h

/-- Directives have nothing to do with paths. -/
theorem animation_ne_path (f : Flow) (fault : PathFault) (t : Text) :
    f.animation ≠ .error (.path fault t) := by
  intro h
  have hduration : ∀ timing, durationFailure timing ≠ .path fault t := fun timing => by
    rcases durationFailure_eq_or timing with hd | hd <;> simp [hd]
  rcases animation_eq_error.mp h with ⟨_, _, hfocus⟩ | ⟨_, _, _, hhighlight⟩
  · rcases compileFocus_fault hfocus with ⟨_, hc, _⟩ | ⟨_, _, _, _, hc⟩
    · cases hc
    · exact hduration _ hc.symm
  · rcases compileHighlight_eq_error.mp hhighlight with ⟨_, _, hc⟩ | ⟨_, _, ⟨_, hc⟩ | ⟨_, hcheck⟩⟩
    · cases hc
    · cases hc
    · rcases checkDuration_fault hcheck with hc | ⟨_, hc⟩
      · cases hc
      · exact hduration _ hc.symm

/-- A document that is stopped by a long path has a picture with this path. -/
theorem picture_of_nameTooLong {folder : FolderName} {t : Text}
    (h : (compileDocument w d folder).outcome = .error (.path .nameTooLong t)) :
    ∃ root ∈ d.pictures, w.Refuses (assetPath folder.path root) ∧
      t = (assetPath folder.path root).text := by
  have hn := nodup_pictures d
  rw [outcome_compileDocument, bind_eq_error] at h
  rcases h with hbuild | ⟨_, _, hanimations⟩
  · rcases (buildFragments_eq_error hn).mp hbuild with hresolve | ⟨hrefused, _, hread⟩
    · rcases (resolveAssets_eq_error hn).mp hresolve with ⟨p, hp, ht⟩ | ⟨_, _, hmissing⟩
      · obtain ⟨root, hroot, rfl⟩ := List.mem_map.mp hp.mem
        exact ⟨root, hroot, ht.nameTooLong⟩
      · cases hmissing
    · -- A picture that is found has a path that can be looked up.
      obtain ⟨root, hroot, hfragment⟩ := mapM_eq_error.mp hread
      rcases fragment_eq_error.mp hfragment with hfile | ⟨_, _, _, _, hc⟩ | ⟨_, _, _, _, _, hc⟩
      · rcases Workspace.read_eq_error.mp hfile with ⟨_, hc⟩ | ⟨fault, hfault, hc⟩
        · cases hc
        · cases hc
          exact absurd (Or.inl hfault) (hrefused root hroot.mem)
      · cases hc
      · cases hc
  · rcases bind_eq_error.mp hanimations with hentries | ⟨_, _, hc⟩
    · obtain ⟨f, _, hf⟩ := mapM_eq_error.mp hentries
      exact absurd (map_eq_error.mp hf) (animation_ne_path f _ _)
    · cases hc

/-! ### The same inputs -/

/-- The documents that stand directly in a folder. -/
def documentsIn (w : Workspace) (base : Location) : List Text :=
  (w.namesIn base).filter (hasDocument w base)

/-- The path leads to one folder in both workspaces.  The same documents stand in it, and if there
is only one, its bytes are the same, and so is what stands in the place of every picture that it
shows. -/
structure SameInputs [DataReader] (w w' : Workspace) (folder : Path) (base : Location) : Prop where
  current : w'.current = w.current
  leads : w.locate folder = .ok base
  leads' : w'.locate folder = .ok base
  found : w.entryAt? base = some .folder
  found' : w'.entryAt? base = some .folder
  documents : (documentsIn w' base).Perm (documentsIn w base)
  document : ∀ name, documentsIn w base = [name] →
    w'.entryAt? (base ++ [Name.ofText name]) = w.entryAt? (base ++ [Name.ofText name])
  pictures : ∀ name d, documentsIn w base = [name] →
    (loadDocument w (folder.child name)).outcome = .ok d → ∀ root ∈ d.pictures,
      w'.entryAt? (base ++ [Name.ofText (assetName root)]) =
        w.entryAt? (base ++ [Name.ofText (assetName root)])

theorem documentNames_of_not_refuses (hl : w.locate folder = .ok base)
    (hf : w.entryAt? base = some .folder) (hr : ¬ RefusesEntry w folder) :
    documentNames w folder = .ok ((documentsIn w base).mergeSort Text.le) := by
  have hnames := Workspace.names_of_locate hl
  refine documentNames_eq_ok.mpr ⟨hr, ?_⟩
  rw [List.filter_filter, hnames, documentsIn]
  refine congrArg (List.mergeSort · Text.le) (List.filter_congr fun n hn => ?_)
  have hn : n ∈ w.names folder := hnames ▸ hn
  rw [Bool.and_comm, hasDocument_eq hl hf (Workspace.isName_of_mem_names hn)
    fun hrn => hr ⟨n, hn, hrn⟩]

theorem eq_singleton_of_mergeSort {l : List Text} {t : Text} (h : l.mergeSort Text.le = [t]) :
    l = [t] := by
  have hperm := (List.mergeSort_perm l Text.le).symm
  rw [h] at hperm
  exact List.perm_singleton.mp hperm

/-- What stands in a folder is among its names. -/
theorem Workspace.mem_namesIn_of_entryAt? {n : Name} {e : Entry}
    (h : w.entryAt? (base ++ [n]) = some e) : n.text ∈ w.namesIn base := by
  rw [Workspace.entryAt?, if_neg (by simp)] at h
  obtain ⟨front, back, heq, _⟩ := List.lookup_eq_some_iff.mp h
  exact mem_namesIn.mpr ⟨n, e, rfl, by rw [heq]; simp⟩

/-- What is listed in a folder stands there, and is shown by just this text. -/
theorem Workspace.exists_entryAt?_of_mem_namesIn {name : Text} (h : name ∈ w.namesIn base) :
    (Name.ofText name).text = name ∧ ∃ e, w.entryAt? (base ++ [Name.ofText name]) = some e := by
  obtain ⟨n, e, rfl, he⟩ := mem_namesIn.mp h
  rw [Name.ofText_text, Workspace.entryAt?, if_neg (by simp)]
  refine ⟨rfl, Option.ne_none_iff_exists'.mp fun hnone => ?_⟩
  have hne := List.lookup_eq_none_iff.mp hnone _ he
  simp at hne

theorem findDocument_of_folder (h : w.entry folder = .ok .folder) :
    (findDocument w folder).outcome = documentNames w folder >>= fun names =>
      match names with
      | [name] => .ok (folder.child name)
      | names => .error (.reported (.noSingleDocument folder.text names)) := by
  have hfolder : (requireFolder w folder).outcome = .ok () := requireFolder_eq_ok.mpr h
  simp only [findDocument, Run.outcome_bind, hfolder, ok_bind, Run.outcome_ofExcept]
  refine congrArg _ (funext fun names => ?_)
  rcases names with _ | ⟨name, _ | ⟨_, _⟩⟩ <;> rfl

theorem isName_of_mem_documentsIn {name : Text} (h : name ∈ documentsIn w base) :
    name.IsName := by
  obtain ⟨n, _, rfl, _⟩ := Workspace.mem_namesIn.mp (List.mem_filter.mp h).1
  exact n.isName_text

theorem isDocumentName_of_mem_documentsIn {name : Text} (h : name ∈ documentsIn w base) :
    isDocumentName name = true := (Bool.and_eq_true_iff.mp (List.mem_filter.mp h).2).1

namespace SameInputs

variable [DataReader]

variable {name : Text}

theorem entry (h : SameInputs w w' folder base) :
    w.entry folder = .ok .folder ∧ w'.entry folder = .ok .folder :=
  ⟨Workspace.entry_eq_ok.mpr ⟨base, h.leads, h.found⟩,
    Workspace.entry_eq_ok.mpr ⟨base, h.leads', h.found'⟩⟩

/-- A name in the folder is looked up with the same result if the same stands there. -/
theorem entry_child (h : SameInputs w w' folder base) (hname : name.IsName)
    (hn : name ≠ Path.above)
    (hsame : w'.entryAt? (base ++ [Name.ofText name]) = w.entryAt? (base ++ [Name.ofText name])) :
    w'.entry (folder.child name) = w.entry (folder.child name) := by
  rw [Workspace.entry, Workspace.entry, Workspace.locate_step h.leads h.found hname,
    Workspace.locate_step h.leads' h.found' hname, if_neg hn]
  split
  · rfl
  · simp only [ok_bind, hsame]

theorem entry_document (h : SameInputs w w' folder base) (hd : documentsIn w base = [name]) :
    w'.entry (folder.child name) = w.entry (folder.child name) := by
  have hmem : name ∈ documentsIn w base := hd ▸ List.mem_singleton_self name
  exact h.entry_child (isName_of_mem_documentsIn hmem)
    (CommandLine.isDocumentName_ne_above (isDocumentName_of_mem_documentsIn hmem))
    (h.document name hd)

theorem entry_picture (h : SameInputs w w' folder base) (hd : documentsIn w base = [name])
    (hload : (loadDocument w (folder.child name)).outcome = .ok d) :
    ∀ root ∈ d.pictures,
      w'.entry (assetPath folder root) = w.entry (assetPath folder root) := by
  intro root hroot
  have hid := isFlowId_of_mem_pictures (isValid_of_loadDocument hload) hroot
  rw [assetPath_eq_child folder hid]
  exact h.entry_child (isName_assetName hid) (assetName_ne (by decide))
    (h.pictures name d hd hload root hroot)

/-- **Nothing but the inputs counts** where all that stands in the folder can be looked up. -/
theorem compileFolder (h : SameInputs w w' folder base) (hr : ¬ RefusesEntry w folder)
    (hr' : ¬ RefusesEntry w' folder) :
    (compileFolder w' folder).outcome = (compileFolder w folder).outcome := by
  have hnames := documentNames_of_not_refuses h.leads h.found hr
  have hnames' : documentNames w' folder = documentNames w folder := by
    rw [hnames, documentNames_of_not_refuses h.leads' h.found' hr',
      Text.mergeSort_congr h.documents]
  have hfind : (findDocument w' folder).outcome = (findDocument w folder).outcome := by
    rw [findDocument_of_folder h.entry.1, findDocument_of_folder h.entry.2, hnames']
  simp only [SvgDeck.compileFolder, Run.outcome_bind, hfind]
  cases hpath : (findDocument w folder).outcome with
  | error f => rw [error_bind, error_bind]
  | ok path =>
    obtain ⟨_, name, honly, rfl⟩ := findDocument_eq_ok.mp hpath
    have hd : documentsIn w base = [name] :=
      eq_singleton_of_mergeSort (Except.ok.inj (hnames.symm.trans honly))
    rw [ok_bind, ok_bind, loadDocument_congr (h.entry_document hd)]
    cases hload : (loadDocument w (folder.child name)).outcome with
    | error f => rw [error_bind, error_bind]
    | ok d =>
      have hcompile : (compileDocument w' d (.ofPath folder)).outcome =
          (compileDocument w d (.ofPath folder)).outcome :=
        compileDocument_congr h.current (h.entry_picture hd hload)
      rw [ok_bind, ok_bind, Path.parent_child, hcompile]

theorem symm (h : SameInputs w w' folder base) : SameInputs w' w folder base := by
  have hdocuments : ∀ name, documentsIn w' base = [name] → documentsIn w base = [name] :=
    fun name hd => List.perm_singleton.mp (hd ▸ h.documents.symm)
  constructor
  case current => exact h.current.symm
  case leads => exact h.leads'
  case leads' => exact h.leads
  case found => exact h.found'
  case found' => exact h.found
  case documents => exact h.documents.symm
  case document => exact fun name hd => (h.document name (hdocuments name hd)).symm
  case pictures =>
    intro name d hd hload root hroot
    have hd := hdocuments name hd
    rw [loadDocument_congr (h.entry_document hd)] at hload
    exact (h.pictures name d hd hload root hroot).symm

/-- Where all can be looked up, compiling is not stopped as by a long path in the other workspace:
the picture with this path would stand in both. -/
theorem compileFolder_ne (h : SameInputs w w' folder base) (hr : ¬ RefusesEntry w folder)
    (hr' : refusedIn w' folder = some name) :
    (SvgDeck.compileFolder w folder).outcome ≠
      .error (.path .nameTooLong (folder.child name).text) := by
  intro hcompile
  have hnames := documentNames_of_not_refuses h.leads h.found hr
  have hfind : ∀ fault t, (findDocument w folder).outcome ≠ .error (.path fault t) := by
    intro fault t hfind
    rw [findDocument_of_folder h.entry.1, hnames, ok_bind] at hfind
    split at hfind <;> cases hfind
  rcases compileFolder_eq_error.mp hcompile with
    hcontra | ⟨document, _, honly, hload | ⟨d, hload, hdocument⟩⟩
  · exact hfind _ _ hcontra
  · -- The document can be looked up, and no other fault of loading is of this kind.
    rcases loadDocument_eq_error.mp hload with ⟨hrefused, _⟩ | ⟨_, _, hc⟩ | hfault
    · obtain ⟨bytes, hfile⟩ := entry_of_only honly
      exact absurd hrefused (by simp [Workspace.Refuses, hfile])
    · cases hc
    · cases hfault with
      | data _ hdata => rcases loadData_fault hdata with ⟨_, hc, _⟩ | ⟨_, _, hc⟩ <;> cases hc
  · obtain ⟨root, hroot, hrefused, htext⟩ := picture_of_nameTooLong hdocument
    have hd : documentsIn w base = [document] :=
      eq_singleton_of_mergeSort (Except.ok.inj (hnames.symm.trans honly))
    have hid := isFlowId_of_mem_pictures (isValid_of_loadDocument hload) hroot
    rw [FolderName.ofPath, assetPath_eq_child folder hid] at htext hrefused
    obtain rfl := Path.text_child_injective htext
    have hmem := (refusedIn_eq_some.mp hr').mem
    rw [Workspace.names_of_locate h.leads'] at hmem
    obtain ⟨hshown, e, he⟩ := Workspace.exists_entryAt?_of_mem_namesIn hmem
    rw [h.pictures document d hd hload root hroot] at he
    refine hr ⟨_, ?_, hrefused⟩
    rw [Workspace.names_of_locate h.leads, ← hshown]
    exact Workspace.mem_namesIn_of_entryAt? he

/-- Two workspaces with the same inputs end in the same way exactly if the same path is the first
in each that is too long. -/
theorem compileFolder_iff (h : SameInputs w w' folder base) :
    (SvgDeck.compileFolder w' folder).outcome = (SvgDeck.compileFolder w folder).outcome ↔
      refusedIn w' folder = refusedIn w folder := by
  cases hr : refusedIn w folder with
  | none =>
    have hnone := refusedIn_eq_none.mp hr
    cases hr' : refusedIn w' folder with
    | none => exact iff_of_true (h.compileFolder hnone (refusedIn_eq_none.mp hr')) rfl
    | some name' =>
      rw [compileFolder_of_refusedIn h.entry.2 hr']
      exact iff_of_false (h.compileFolder_ne hnone hr').symm (by simp)
  | some name =>
    rw [compileFolder_of_refusedIn h.entry.1 hr]
    cases hr' : refusedIn w' folder with
    | none =>
      exact iff_of_false (h.symm.compileFolder_ne (refusedIn_eq_none.mp hr') hr) (by simp)
    | some name' =>
      rw [compileFolder_of_refusedIn h.entry.2 hr', Except.error.injEq, Failure.path.injEq,
        Option.some.injEq, and_iff_right rfl]
      exact ⟨Path.text_child_injective, fun hname => by rw [hname]⟩

end SameInputs

/-! ### Building again -/

section Put

variable {n : Name} {e : Entry}

/-- Something new in a folder is listed last, and nothing else is listed in another way. -/
theorem Workspace.namesIn_put :
    (w.put (base ++ [n]) e).namesIn base =
      if (w.entries.lookup (base ++ [n])).isSome then w.namesIn base
      else w.namesIn base ++ [n.text] := by
  rw [put]
  by_cases hknown : (w.entries.lookup (base ++ [n])).isSome = true
  · rw [if_pos hknown, if_pos hknown, namesIn, namesIn, List.filterMap_map]
    refine List.filterMap_congr fun x _ => ?_
    by_cases hx : x.1 = base ++ [n]
    · simp [hx]
    · simp [hx]
  · rw [if_neg hknown, if_neg hknown, namesIn, namesIn, List.filterMap_append]
    simp

theorem documentsIn_put (hn : isDocumentName n.text = false) :
    documentsIn (w.put (base ++ [n]) e) base = documentsIn w base := by
  have hsame : ∀ m ∈ w.namesIn base,
      hasDocument (w.put (base ++ [n]) e) base m = hasDocument w base m := by
    intro m hm
    obtain ⟨hshown, _⟩ := Workspace.exists_entryAt?_of_mem_namesIn hm
    rw [hasDocument, hasDocument]
    by_cases hmn : Name.ofText m = n
    · rw [← hshown, hmn, hn, Bool.false_and, Bool.false_and]
    · have hplace : base ++ [Name.ofText m] ≠ base ++ [n] := by simpa using hmn
      rw [Workspace.entryAt?_put (by simp), if_neg hplace]
  rw [documentsIn, documentsIn, ← List.filter_congr hsame, Workspace.namesIn_put]
  split
  · rfl
  · simp [hasDocument, hn]

/-- A file that is neither a document nor a picture is no input. -/
theorem sameInputs_put [DataReader] {bytes : List UInt8} (hl : w.locate folder = .ok base)
    (hf : w.entryAt? base = some .folder) (hfree : w.entryAt? (base ++ [n]) ≠ some .folder)
    (hn : ∀ source, IsSource source → n ≠ Name.ofText source) :
    SameInputs w (w.put (base ++ [n]) (.file bytes)) folder base := by
  have hreplaced : w.Replaced (w.put (base ++ [n]) (.file bytes)) (base ++ [n]) (.file bytes) :=
    Workspace.replaced_put (by simp)
  have hfolders := hreplaced.folders hfree
  have hdocument : isDocumentName n.text = false :=
    eq_false_of_ne_true fun h => hn n.text (Or.inl h) n.ofText_text.symm
  have hsource : ∀ source, IsSource source →
      (w.put (base ++ [n]) (.file bytes)).entryAt? (base ++ [Name.ofText source]) =
        w.entryAt? (base ++ [Name.ofText source]) :=
    fun source hs => hreplaced.elsewhere _ (by simpa using (hn source hs).symm)
  constructor
  case current => rfl
  case leads => exact hl
  case leads' => exact Workspace.locate_of_folders hreplaced.current hfolders hl
  case found => exact hf
  case found' => exact hfolders base hf
  case documents => rw [documentsIn_put hdocument]
  case document =>
    intro name hd
    have hmem : name ∈ documentsIn w base := hd ▸ List.mem_singleton_self name
    exact hsource name (Or.inl (isDocumentName_of_mem_documentsIn hmem))
  case pictures => exact fun _ _ _ _ root _ => hsource _ (Or.inr ⟨root, rfl⟩)

/-- What could be looked up beside a file before it was written can be looked up after it. -/
theorem not_refusesEntry_put {name : Text} {bytes : List UInt8} (hl : w.locate folder = .ok base)
    (hname : name.IsName)
    (hw : w.CanWrite (folder.child name) (base ++ [Name.ofText name]))
    (hr : ¬ RefusesEntry w folder) :
    ¬ RefusesEntry (w.put (base ++ [Name.ofText name]) (.file bytes)) folder := by
  have hreplaced := Workspace.replaced_put hw.ne_nil (w := w) (e := .file bytes)
  have hfolders := hreplaced.folders hw.free
  have hf : w.entryAt? base = some .folder := by simpa using hw.parent
  have hl' := Workspace.locate_of_folders hreplaced.current hfolders hl
  rintro ⟨m, hm, hrefused⟩
  have hmname := Workspace.isName_of_mem_names hm
  -- Only lengths count, so the path was refused before.
  rw [Workspace.refuses_child_iff hl' (hfolders base hf) hmname,
    ← Workspace.refuses_child_iff hl hf hmname] at hrefused
  have hlisted : m = (Name.ofText name).text ∨ m ∈ w.names folder := by
    rw [Workspace.names_of_locate hl', Workspace.namesIn_put] at hm
    rw [Workspace.names_of_locate hl]
    split at hm
    · exact Or.inr hm
    · exact (List.mem_append.mp hm).symm.imp_left List.mem_singleton.mp
  rcases hlisted with rfl | hlisted
  · have hle : Workspace.byteLength (Name.ofText name).text ≤ Workspace.byteLength name := by
      rw [Workspace.byteLength, Name.ofText_text, Workspace.byteLength]
    have hcontra := hrefused.mono hl hf hmname hname hle
    rw [Workspace.refuses_iff, hw.leads] at hcontra
    cases hcontra
  · exact hr ⟨m, hlisted, hrefused⟩

end Put

theorem Compiles.not_refusesEntry [DataReader] {name : Text} {b : Bundle} (h : Compiles w folder name d b) :
    ¬ RefusesEntry w folder := (documentNames_eq_ok.mp h.only).1

/-- **A second build changes nothing**: it succeeds, and it writes what stands there. -/
theorem build_build [DataReader] {page : Path} (h : (build w folder).2.outcome = .ok page) :
    (build (build w folder).1 folder).2.outcome = .ok page ∧
      (build (build w folder).1 folder).1 = (build w folder).1 := by
  obtain ⟨name, d, b, place, hc, hw, ht, rfl⟩ := exists_of_build h
  obtain ⟨base, hl, rfl⟩ := hc.place_eq hw
  have hf : w.entryAt? base = some .folder := by simpa using hw.parent
  -- The same slideshow is compiled, as the page is none of its inputs.
  have hsame : SameInputs w (build w folder).1 folder base := by
    rw [build_eq_put hc hw ht]
    exact sameInputs_put hl hf hw.free fun _ => pageName_ne_source
  have hr' : ¬ RefusesEntry (build w folder).1 folder := by
    rw [build_eq_put hc hw ht]
    exact not_refusesEntry_put hl (isName_pageName (isName_of_only hc.only)) hw hc.not_refusesEntry
  have hcompile := hsame.compileFolder hc.not_refusesEntry hr'
  rw [compileFolder_eq_ok.mpr ⟨name, d, hc, rfl⟩] at hcompile
  obtain ⟨name', d', hc', hpath⟩ := compileFolder_eq_ok.mp hcompile
  obtain rfl : name = name' := Path.text_child_injective (congrArg Path.text hpath)
  have hw' : (build w folder).1.CanWrite (folder.child (pageName name))
      (base ++ [Name.ofText (pageName name)]) :=
    hw.of_replaced (build_of_isUnicode hc hw ht).2 hw
  refine ⟨(build_of_isUnicode hc' hw' ht).1, ?_⟩
  rw [build_eq_put hc' hw' ht, build_eq_put hc hw ht, Workspace.put_put]

/-- **Compiling depends on its inputs only**, unless a path is too long to be looked up in one of
the workspaces and not in the other; and a second build changes nothing. -/
theorem compileFolder_inputs [DataReader] (w : Workspace) (folder : Path) :
    (∀ w' base, SameInputs w w' folder base →
      ((compileFolder w' folder).outcome = (compileFolder w folder).outcome ↔
        refusedIn w' folder = refusedIn w folder)) ∧
    ∀ page, (build w folder).2.outcome = .ok page →
      (build (build w folder).1 folder).2.outcome = .ok page ∧
        (build (build w folder).1 folder).1 = (build w folder).1 :=
  ⟨fun _ _ h => h.compileFolder_iff, fun _ h => build_build h⟩

/-- A talk with a newer page. -/
def printedTalk : Workspace :=
  plainTalk.put ["talk", "talk.html"] (fileOf "new page")

theorem compileFolder_inputs_plainTalk :
    SameInputs plainTalk printedTalk (.ofText "talk") ["talk"] ∧
      (compileFolder printedTalk (.ofText "talk")).outcome =
        (compileFolder plainTalk (.ofText "talk")).outcome ∧
      ∃ page, (build plainTalk (.ofText "talk")).2.outcome = .ok page ∧
        (build (build plainTalk (.ofText "talk")).1 (.ofText "talk")).1 =
          (build plainTalk (.ofText "talk")).1 := by
  have hn : ∀ source, IsSource source →
      Name.ofText "talk.html" ≠ Name.ofText source := by
    have hpage : pageName "talk.yml" = "talk.html" := by decide
    exact fun source h => hpage ▸ pageName_ne_source h
  have hl : plainTalk.locate (.ofText "talk") = .ok ["talk"] := by decide +kernel
  have hf : plainTalk.entryAt? ["talk"] = some .folder := by decide +kernel
  have hfree : plainTalk.entryAt? ["talk", "talk.html"] ≠ some .folder := by decide +kernel
  have hsame : SameInputs plainTalk printedTalk (.ofText "talk") ["talk"] :=
    sameInputs_put hl hf hfree hn
  obtain ⟨page, hpage⟩ := CommandLine.plainTalk_builds
  obtain ⟨hinputs, hagain⟩ := compileFolder_inputs plainTalk (.ofText "talk")
  exact ⟨hsame, (hinputs _ _ hsame).mpr (by decide +kernel), page, hpage, (hagain page hpage).2⟩

/-- The talk of `crowdedTalk` without the file that has nothing to do with it. -/
def quietTalk : Workspace := plainTalk.put [longName] .folder

theorem crowdedTalk_sameInputs : SameInputs quietTalk crowdedTalk detour ["talk"] := by
  have hn : ∀ source, IsSource source → Name.ofText longName ≠ Name.ofText source := by
    intro source h heq
    -- The last byte of the name is part of a longer character.
    have hlast : (Name.ofText longName).bytes.getLast? = some 0xA5 := by decide +kernel
    obtain ⟨front, x, y, z, hsource, _, hz⟩ := h.exists_bytes
    rw [heq, hsource, List.getLast?_append_of_ne_nil _ (by simp)] at hlast
    obtain rfl : z = 0xA5 := Option.some.inj hlast
    revert hz
    decide
  have hl : quietTalk.locate detour = .ok ["talk"] := by decide +kernel
  have hf : quietTalk.entryAt? ["talk"] = some .folder := by decide +kernel
  have hfree : quietTalk.entryAt? ["talk", longName] ≠ some .folder := by decide +kernel
  exact sameInputs_put hl hf hfree hn

/-- A file with a long name, which is no part of the slideshow, makes the compilation fail. -/
theorem crowdedTalk_compiles_otherwise :
    SameInputs quietTalk crowdedTalk detour ["talk"] ∧
      (compileFolder quietTalk detour).outcome.isOk = true ∧
      (compileFolder crowdedTalk detour).outcome ≠ (compileFolder quietTalk detour).outcome := by
  refine ⟨crowdedTalk_sameInputs, by decide +kernel, ?_⟩
  rw [Ne, crowdedTalk_sameInputs.compileFolder_iff]
  decide +kernel

end SvgDeck
