/-
What the starter adds to a workspace.

Files that can be written are put one after the other, as none of them takes a folder away
(`writeTexts_eq_putTexts`).  In an empty folder that holds for all of the starter as
soon as it holds for its document, which has the longest name (`writable_starter`); so the
starter is added as a whole (`seed_of_not_refused`) or not at all (`seed_of_refused`), and
it replaces nothing (`entryAt?_of_isEmptyFolder`).
-/
import SvgDeck.Deck.Starter
import SvgDeck.Proofs.Change
import SvgDeck.Proofs.Load

namespace SvgDeck

variable {w w' : Workspace} {folder : Path} {base : Location} {f : Failure}

namespace Workspace

/-! ### Long paths -/

theorem byteLength_append (s t : Text) : byteLength (s ++ t) = byteLength s + byteLength t := by
  rw [byteLength, byteLength, byteLength, Name.bytes_ofText_append, List.length_append]

/-- A shorter name in the same folder is refused no sooner. -/
theorem Refuses.mono {name name' : Text} (hl : w.locate folder = .ok base)
    (hf : w.entryAt? base = some .folder) (hname : name.IsName) (hname' : name'.IsName)
    (hle : byteLength name ≤ byteLength name') (h : w.Refuses (folder.child name)) :
    w.Refuses (folder.child name') := by
  obtain ⟨front, hfront⟩ := Path.exists_text_eq folder.anchor folder.parts
  -- Both limits only ask how long the name is, as the front is the same.
  have htext : ∀ n, byteLength (folder.child n).text = byteLength front + byteLength n := by
    intro n
    rw [Path.child, hfront, byteLength_append]
  rw [refuses_child_iff hl hf hname, htext] at h
  rw [refuses_child_iff hl hf hname', htext]
  omega

/-- In an empty folder a file can be written under any name that is not refused. -/
theorem canWrite_child {name : Text} (hl : w.locate folder = .ok base)
    (hf : w.entryAt? base = some .folder) (hname : name.IsName) (hn : name ≠ Path.above)
    (hnone : w.entryAt? (base ++ [Name.ofText name]) = none)
    (hr : ¬ w.Refuses (folder.child name)) :
    w.CanWrite (folder.child name) (base ++ [Name.ofText name]) where
  leads := locate_child_of_not_refuses hl hf hname hn hr
  parent := by rw [List.dropLast_concat, hf]
  free := by simp [hnone]

/-! ### Empty folders -/

theorem mem_namesIn {name : Text} :
    name ∈ w.namesIn base ↔ ∃ n e, n.text = name ∧ (base ++ [n], e) ∈ w.entries := by
  rw [namesIn, List.mem_filterMap]
  constructor
  · rintro ⟨⟨place, e⟩, hmem, hname⟩
    by_cases hplace : place ≠ [] ∧ place.dropLast = base
    · rw [if_pos hplace, Option.map_eq_some_iff] at hname
      obtain ⟨n, hlast, htext⟩ := hname
      obtain ⟨front, rfl⟩ := List.getLast?_eq_some_iff.mp hlast
      obtain rfl : front = base := by simpa using hplace.2
      exact ⟨n, e, htext, hmem⟩
    · rw [if_neg hplace] at hname
      cases hname
  · rintro ⟨n, e, rfl, hmem⟩
    exact ⟨(base ++ [n], e), hmem, by simp⟩

theorem entryAt?_of_isEmptyFolder (hl : w.locate folder = .ok base)
    (h : w.isEmptyFolder folder = true) (name : Name) : w.entryAt? (base ++ [name]) = none := by
  rw [isEmptyFolder, hl] at h
  have hnames : w.namesIn base = [] := List.isEmpty_iff.mp h
  by_contra hsome
  obtain ⟨e, he⟩ := Option.ne_none_iff_exists'.mp hsome
  -- What stands there would be one of the names.
  rw [entryAt?, if_neg (by simp)] at he
  obtain ⟨front, back, heq, _⟩ := List.lookup_eq_some_iff.mp he
  have hmem : name.text ∈ w.namesIn base := mem_namesIn.mpr ⟨name, e, rfl, by rw [heq]; simp⟩
  rw [hnames] at hmem
  cases hmem

/-- `w'` has files with these texts, and everything else stands as it does in `w`. -/
structure Added (w w' : Workspace) (files : List (Location × Text)) : Prop where
  current : w'.current = w.current
  here : ∀ x ∈ files, w'.entryAt? x.1 = some (.file (x.2.flatMap Utf8.encodeCodePoint))
  elsewhere : ∀ q, q ∉ files.map Prod.fst → w'.entryAt? q = w.entryAt? q

end Workspace

/-! ### Writing one after the other -/

/-- A text that can be written to a place. -/
def Writable (w : Workspace) (file : Path × Text) (x : Location × Text) : Prop :=
  w.CanWrite file.1 x.1 ∧ file.2.IsUnicode ∧ x.2 = file.2

/-- Puts files with texts into their places, one after the other. -/
def Workspace.putTexts (w : Workspace) (files : List (Location × Text)) : Workspace :=
  files.foldl (fun w x => w.put x.1 (.file (x.2.flatMap Utf8.encodeCodePoint))) w

theorem writeTexts_eq_putTexts {files : List (Path × Text)} {added : List (Location × Text)}
    (h : List.Forall₂ (Writable w) files added) :
    writeTexts w files = (w.putTexts added, .ok ()) := by
  induction files generalizing w added with
  | nil =>
    cases h
    rfl
  | cons file files ih =>
    obtain ⟨path, text'⟩ := file
    cases h with
    | @cons _ x _ added hfile hfiles =>
      obtain ⟨place, text⟩ := x
      obtain ⟨hw, ht, htext⟩ := hfile
      simp only at hw ht htext
      subst htext
      have hreplaced := Workspace.replaced_put hw.ne_nil (w := w)
        (e := .file (text.flatMap Utf8.encodeCodePoint))
      -- The first file takes no folder away that another one needs.
      have hmore : List.Forall₂
          (Writable (w.put place (.file (text.flatMap Utf8.encodeCodePoint)))) files added :=
        hfiles.imp fun file x hx => ⟨hw.of_replaced hreplaced hx.1, hx.2⟩
      rw [writeTexts, writeText_eq_put hw ht]
      exact ih hmore

/-- Files in different places do not get into each other's way. -/
theorem added_putTexts {files : List (Location × Text)} (hnodup : (files.map Prod.fst).Nodup)
    (hplaces : ∀ x ∈ files, x.1 ≠ []) : w.Added (w.putTexts files) files := by
  induction files generalizing w with
  | nil => exact ⟨rfl, by simp, fun _ _ => rfl⟩
  | cons x files ih =>
    obtain ⟨hx, hfiles⟩ := List.forall_mem_cons.mp hplaces
    rw [List.map_cons, List.nodup_cons] at hnodup
    have hreplaced := Workspace.replaced_put hx (w := w)
      (e := .file (x.2.flatMap Utf8.encodeCodePoint))
    have hadded := ih (w := w.put x.1 (.file (x.2.flatMap Utf8.encodeCodePoint))) hnodup.2 hfiles
    constructor
    case current => exact hadded.current.trans hreplaced.current
    case here =>
      intro y hy
      rcases List.mem_cons.mp hy with rfl | hy
      · exact (hadded.elsewhere _ hnodup.1).trans hreplaced.here
      · exact hadded.here y hy
    case elsewhere =>
      intro q hq
      rw [List.map_cons, List.mem_cons, not_or] at hq
      exact (hadded.elsewhere q hq.2).trans (hreplaced.elsewhere q hq.1)

theorem writeTexts_of_canWrite {files : List (Path × Text)} {added : List (Location × Text)}
    (h : List.Forall₂ (Writable w) files added) (hnodup : (added.map Prod.fst).Nodup) :
    (writeTexts w files).2 = .ok () ∧ w.Added (writeTexts w files).1 added := by
  rw [writeTexts_eq_putTexts h]
  refine ⟨rfl, added_putTexts hnodup fun x hx => ?_⟩
  obtain ⟨file, _, hw, _⟩ := exists_of_forall₂ h hx
  exact hw.ne_nil

theorem writeTexts_of_error {path : Path} {text : Text} {files : List (Path × Text)}
    (h : writeText w path text = (w, .error f)) :
    writeTexts w ((path, text) :: files) = (w, .error f) := by
  rw [writeTexts, h]

/-! ### The starter -/

/-- The files of the starter in a folder. -/
def starterAt (base : Location) : List (Location × Text) :=
  [(base ++ [Name.ofText "slideshow.yml"], starterDocument),
    (base ++ [Name.ofText "intro.svg"], starterCanvas "intro"),
    (base ++ [Name.ofText "detail.svg"], starterCanvas "detail")]

/-- `w'` is `w` with the starter in a folder where nothing stood. -/
def AddsStarter (w : Workspace) (folder : Path) (w' : Workspace) : Prop :=
  ∃ base, w.locate folder = .ok base ∧ (∀ name, w.entryAt? (base ++ [name]) = none) ∧
    w.Added w' (starterAt base)

theorem requireEmptyFolder_eq_ok {u : Unit} :
    (requireEmptyFolder w folder).outcome = .ok u ↔
      w.entry folder = .ok .folder ∧ w.isEmptyFolder folder = true := by
  simp only [requireEmptyFolder, Run.outcome_bind, bind_eq_ok, requireFolder_eq_ok]
  constructor
  · rintro ⟨_, hfolder, h⟩
    by_cases he : w.isEmptyFolder folder = true
    · exact ⟨hfolder, he⟩
    · simp [he] at h
  · rintro ⟨hfolder, he⟩
    exact ⟨(), hfolder, by rw [if_pos he]; rfl⟩

theorem requireEmptyFolder_eq_error :
    (requireEmptyFolder w folder).outcome = .error f ↔
      (requireFolder w folder).outcome = .error f ∨ (w.entry folder = .ok .folder ∧
        w.isEmptyFolder folder = false ∧ f = .reported (.folderNotEmpty folder.text)) := by
  simp only [requireEmptyFolder, Run.outcome_bind, bind_eq_error, requireFolder_eq_ok]
  refine or_congr Iff.rfl ?_
  constructor
  · rintro ⟨_, hfolder, h⟩
    by_cases he : w.isEmptyFolder folder = true
    · simp [he] at h
    · rw [if_neg he, Run.outcome_report, Except.error.injEq] at h
      exact ⟨hfolder, by simpa using he, h.symm⟩
  · rintro ⟨hfolder, he, rfl⟩
    exact ⟨(), hfolder, by rw [he]; rfl⟩

theorem starterFiles_eq (folder : Path) :
    starterFiles folder = [(folder.child "slideshow.yml", starterDocument),
      (folder.child "intro.svg", starterCanvas "intro"),
      (folder.child "detail.svg", starterCanvas "detail")] := by
  rw [starterFiles, assetPath_eq_child folder (by decide), assetPath_eq_child folder (by decide)]
  rfl

theorem isUnicode_starterDocument : starterDocument.IsUnicode :=
  Text.isUnicode_ofLines _

theorem isUnicode_starterCanvas {label : Text} (h : label.IsUnicode) :
    (starterCanvas label).IsUnicode := by
  rw [starterCanvas, Text.isUnicode_append, Text.isUnicode_append]
  exact ⟨⟨Text.isUnicode_ofLines _, h⟩, Text.isUnicode_ofString _⟩

/-! ### Seeding -/

theorem seed_of_error (h : (requireEmptyFolder w folder).outcome = .error f) :
    (seed w folder).1 = w ∧ (seed w folder).2.outcome = .error f := by
  rw [seed, h]
  exact ⟨rfl, rfl⟩

theorem seed_of_ok (h : (requireEmptyFolder w folder).outcome = .ok ()) :
    (seed w folder).1 = (writeTexts w (starterFiles folder)).1 ∧
      (seed w folder).2.outcome = (writeTexts w (starterFiles folder)).2.map
        fun _ => (starterFiles folder).map (·.1) := by
  rw [seed, h]
  refine ⟨rfl, ?_⟩
  simp only
  cases (writeTexts w (starterFiles folder)).2 <;> rfl

/-- If the document of the starter has a place, then its pictures have one. -/
theorem writable_starter (hl : w.locate folder = .ok base) (hf : w.entryAt? base = some .folder)
    (hnone : ∀ name, w.entryAt? (base ++ [name]) = none)
    (hr : ¬ w.Refuses (folder.child "slideshow.yml")) :
    List.Forall₂ (Writable w) (starterFiles folder) (starterAt base) := by
  rw [starterFiles_eq, starterAt]
  have hdocument : Text.IsName "slideshow.yml" := by decide
  -- Names that are no longer than that of the document are refused no sooner.
  have hcan : ∀ name : Text, name.IsName → name ≠ Path.above →
      Workspace.byteLength name ≤ Workspace.byteLength "slideshow.yml" →
        w.CanWrite (folder.child name) (base ++ [Name.ofText name]) := by
    intro name hname hn hle
    exact Workspace.canWrite_child hl hf hname hn (hnone _)
      fun h => hr (h.mono hl hf hname hdocument hle)
  have hcanvas : ∀ label : String, (starterCanvas label).IsUnicode := fun label =>
    isUnicode_starterCanvas (Text.isUnicode_ofString label)
  refine .cons ⟨hcan "slideshow.yml" hdocument (by decide) le_rfl, isUnicode_starterDocument, rfl⟩
    ?_
  refine .cons ⟨hcan "intro.svg" (by decide) (by decide) (by decide), hcanvas "intro", rfl⟩ ?_
  exact .cons ⟨hcan "detail.svg" (by decide) (by decide) (by decide), hcanvas "detail", rfl⟩ .nil

theorem nodup_starterAt (base : Location) : ((starterAt base).map Prod.fst).Nodup := by
  have hnames : (starterAt base).map Prod.fst =
      (["slideshow.yml", "intro.svg", "detail.svg"] : Location).map fun name => base ++ [name] :=
    rfl
  rw [hnames]
  refine List.Nodup.map ?_ (by decide)
  intro name name' h
  exact List.singleton_inj.mp (List.append_cancel_left h)

/-- An empty folder gets the whole starter. -/
theorem seed_of_not_refused (hfolder : w.entry folder = .ok .folder)
    (he : w.isEmptyFolder folder = true) (hr : ¬ w.Refuses (folder.child "slideshow.yml")) :
    (seed w folder).2.outcome = .ok ((starterFiles folder).map (·.1)) ∧
      AddsStarter w folder (seed w folder).1 := by
  obtain ⟨base, hl, hf⟩ := Workspace.entry_eq_ok.mp hfolder
  have hnone := Workspace.entryAt?_of_isEmptyFolder hl he
  obtain ⟨hdone, hadded⟩ :=
    writeTexts_of_canWrite (writable_starter hl hf hnone hr) (nodup_starterAt base)
  obtain ⟨hafter, houtcome⟩ := seed_of_ok (requireEmptyFolder_eq_ok.mpr ⟨hfolder, he⟩)
  rw [hdone] at houtcome
  rw [hafter]
  exact ⟨houtcome, base, hl, hnone, hadded⟩

/-- An empty folder whose path is too long for the document of the starter gets nothing. -/
theorem seed_of_refused (hfolder : w.entry folder = .ok .folder)
    (he : w.isEmptyFolder folder = true) (hr : w.Refuses (folder.child "slideshow.yml")) :
    (seed w folder).1 = w ∧ (seed w folder).2.outcome =
      .error (.path .nameTooLong (folder.child "slideshow.yml").text) := by
  obtain ⟨hafter, houtcome⟩ := seed_of_ok (requireEmptyFolder_eq_ok.mpr ⟨hfolder, he⟩)
  have hfirst : writeText w (folder.child "slideshow.yml") starterDocument =
      (w, .error (.path .nameTooLong (folder.child "slideshow.yml").text)) := by
    rw [writeText, Workspace.write, Workspace.refuses_iff.mp hr]
  rw [starterFiles_eq, writeTexts_of_error hfirst] at hafter houtcome
  exact ⟨hafter, houtcome⟩

end SvgDeck
