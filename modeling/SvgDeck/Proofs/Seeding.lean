/-
Seeding a folder and building it.

Seeding an empty folder adds the three files of the starter and nothing else
(`seeds_of_not_refuses`).  The document is read back as `Document.starter`, the slideshow compiles,
and building it adds the page and nothing else (`buildsSeeded_of_not_refuses`).  From then on the
folder is not empty, so seeding it fails without a change (`seedFails_of_not_empty`).

There is one exception: a path that is too long, be it that of the folder, the document or the page.

* `seedsSafely_iff` — there is no other exception.  Without any, seeding that fails changes nothing,
  and seeding never changes what stood there before.
-/
import SvgDeck.Proofs.DocumentSearch
import SvgDeck.Proofs.StarterDocument

namespace SvgDeck

variable {w : Workspace} {folder : Path} {base : Location} {name : Text} {f : Failure}

/-! ### Looking up what stands in a folder -/

namespace Workspace

theorem entry_child (hl : LeadsTo w folder base) (hname : name.IsName) (hn : name ≠ Path.above)
    (hr : ¬ w.Refuses (folder.child name)) {e : Entry}
    (he : w.entryAt? (base ++ [Name.ofText name]) = some e) : w.entry (folder.child name) = .ok e :=
  entry_eq_ok.mpr ⟨_, locate_child_of_not_refuses hl.1 hl.2 hname hn hr, he⟩

theorem namesIn_eq_nil (hfree : ∀ name, w.entryAt? (base ++ [name]) = none) :
    w.namesIn base = [] := by
  rw [List.eq_nil_iff_forall_not_mem]
  intro name hname
  obtain ⟨_, e, he⟩ := exists_entryAt?_of_mem_namesIn hname
  rw [hfree] at he
  cases he

theorem isEmptyFolder_iff (hl : w.locate folder = .ok base) :
    w.isEmptyFolder folder = true ↔ ∀ name, w.entryAt? (base ++ [name]) = none := by
  refine ⟨entryAt?_of_isEmptyFolder hl, fun hfree => ?_⟩
  rw [isEmptyFolder, hl]
  exact List.isEmpty_iff.mpr (namesIn_eq_nil hfree)

end Workspace

/-! ### Seeding that fails -/

/-- The path leads to a folder in which nothing stands. -/
structure IsEmptyFolder (w : Workspace) (folder : Path) (base : Location) : Prop where
  leads : LeadsTo w folder base
  free : ∀ name, w.entryAt? (base ++ [name]) = none

/-- Seeding fails in this way, and leaves the workspace as it was. -/
def SeedFails (w : Workspace) (folder : Path) (f : Failure) : Prop :=
  (seed w folder).2.outcome = .error f ∧ (seed w folder).1 = w

theorem requireEmptyFolder_iff :
    (requireEmptyFolder w folder).outcome = .ok () ↔ ∃ base, IsEmptyFolder w folder base := by
  rw [requireEmptyFolder_eq_ok, ← exists_leadsTo]
  constructor
  · rintro ⟨⟨base, hl⟩, he⟩
    exact ⟨base, hl, (Workspace.isEmptyFolder_iff hl.1).mp he⟩
  · rintro ⟨base, hl, hfree⟩
    exact ⟨⟨base, hl⟩, (Workspace.isEmptyFolder_iff hl.1).mpr hfree⟩

theorem seedFails_of_required (h : (requireEmptyFolder w folder).outcome = .error f) :
    SeedFails w folder f := by
  obtain ⟨hafter, houtcome⟩ := seed_of_error h
  exact ⟨houtcome, hafter⟩

theorem seedFails_of_refuses (h : w.Refuses folder) :
    SeedFails w folder (.path .nameTooLong folder.text) :=
  seedFails_of_required (requireEmptyFolder_eq_error.mpr (Or.inl (requireFolder_of_refuses h)))

theorem seedFails_of_missing (hr : ¬ w.Refuses folder) (h : ¬ ∃ base, LeadsTo w folder base) :
    SeedFails w folder (.reported (.folderNotFound folder.text)) := by
  rw [exists_leadsTo] at h
  refine seedFails_of_required (requireEmptyFolder_eq_error.mpr (Or.inl ?_))
  exact requireFolder_eq_error.mpr (Or.inr ⟨hr, h, rfl⟩)

theorem seedFails_of_not_empty (hl : LeadsTo w folder base) (h : ¬ IsEmptyFolder w folder base) :
    SeedFails w folder (.reported (.folderNotEmpty folder.text)) := by
  have he : w.isEmptyFolder folder = false := by
    refine eq_false_of_ne_true fun he => h ⟨hl, ?_⟩
    exact (Workspace.isEmptyFolder_iff hl.1).mp he
  refine seedFails_of_required (requireEmptyFolder_eq_error.mpr (Or.inr ⟨?_, he, rfl⟩))
  exact exists_leadsTo.mp ⟨base, hl⟩

theorem seedFails_of_refused (h : IsEmptyFolder w folder base)
    (hr : w.Refuses (folder.child "slideshow.yml")) :
    SeedFails w folder (.path .nameTooLong (folder.child "slideshow.yml").text) := by
  obtain ⟨hfolder, he⟩ := requireEmptyFolder_eq_ok.mp (requireEmptyFolder_iff.mpr ⟨base, h⟩)
  obtain ⟨hafter, houtcome⟩ := seed_of_refused hfolder he hr
  exact ⟨houtcome, hafter⟩

/-! ### Names of new files -/

/-- Something new in a folder is listed last. -/
theorem Workspace.namesIn_put_of_free {n : Name} {e : Entry}
    (h : w.entryAt? (base ++ [n]) = none) :
    (w.put (base ++ [n]) e).namesIn base = w.namesIn base ++ [n.text] := by
  rw [entryAt?, if_neg (by simp)] at h
  rw [namesIn_put, h]
  rfl

/-- New files are listed behind what was there, in the order in which they were put. -/
theorem Workspace.namesIn_putTexts {files : List (Name × Text)} (hn : (files.map Prod.fst).Nodup)
    (hfree : ∀ x ∈ files, w.entryAt? (base ++ [x.1]) = none) :
    (w.putTexts (files.map fun x => (base ++ [x.1], x.2))).namesIn base =
      w.namesIn base ++ files.map (Name.text ∘ Prod.fst) := by
  induction files generalizing w with
  | nil => exact (List.append_nil _).symm
  | cons x files ih =>
    obtain ⟨hx, hfiles⟩ := List.forall_mem_cons.mp hfree
    rw [List.map_cons, List.nodup_cons] at hn
    have hfree' : ∀ y ∈ files,
        (w.put (base ++ [x.1]) (fileOf x.2)).entryAt? (base ++ [y.1]) = none := by
      intro y hy
      have hne : y.1 ≠ x.1 := fun h => hn.1 (h ▸ List.mem_map_of_mem hy)
      rw [entryAt?_put (by simp), if_neg (by simpa using hne), hfiles y hy]
    have hrest := ih hn.2 hfree'
    rw [namesIn_put_of_free hx, List.append_assoc] at hrest
    exact hrest

/-! ### Seeding that succeeds -/

/-- The starter by names. -/
def starterTexts : List (Text × Text) :=
  [("slideshow.yml", starterDocument), ("intro.svg", starterCanvas "intro"),
    ("detail.svg", starterCanvas "detail")]

/-- What seeding an empty folder does: the files of the starter are added, their paths are returned,
the document is read back, and the folder is not seeded again. -/
structure Seeds (w : Workspace) (folder : Path) (base : Location) : Prop where
  paths : (seed w folder).2.outcome = .ok
    [folder.child "slideshow.yml", folder.child "intro.svg", folder.child "detail.svg"]
  added : w.Added (seed w folder).1 (starterAt base)
  loaded : (loadDocument (seed w folder).1 (folder.child "slideshow.yml")).outcome = .ok .starter
  again : SeedFails (seed w folder).1 folder (.reported (.folderNotEmpty folder.text))

theorem document_mem_starterTexts :
    (Text.ofString "slideshow.yml", starterDocument) ∈ starterTexts := List.mem_cons_self

theorem mem_starterAt {text : Text} (h : (name, text) ∈ starterTexts) :
    (base ++ [Name.ofText name], text) ∈ starterAt base :=
  List.mem_map_of_mem (f := fun x : Text × Text => (base ++ [Name.ofText x.1], x.2)) h

theorem exists_of_mem_starterAt {x : Location × Text} (h : x ∈ starterAt base) :
    ∃ y ∈ starterTexts, x = (base ++ [Name.ofText y.1], y.2) := by
  obtain ⟨y, hy, rfl⟩ : ∃ y ∈ starterTexts, (base ++ [Name.ofText y.1], y.2) = x :=
    List.mem_map.mp h
  exact ⟨y, hy, rfl⟩

/-- What is added to an empty folder replaces nothing. -/
theorem Workspace.Added.keeps {w' : Workspace} (h : w.Added w' (starterAt base))
    (hfree : ∀ name, w.entryAt? (base ++ [name]) = none) {q : Location} {e : Entry}
    (hq : w.entryAt? q = some e) : w'.entryAt? q = some e := by
  rw [h.elsewhere q, hq]
  intro hmem
  -- All places of the starter were free.
  obtain ⟨x, hx, rfl⟩ := List.mem_map.mp hmem
  obtain ⟨y, _, rfl⟩ := exists_of_mem_starterAt hx
  rw [hfree] at hq
  cases hq

theorem Workspace.Added.leadsTo {w' : Workspace} (h : w.Added w' (starterAt base))
    (he : IsEmptyFolder w folder base) : LeadsTo w' folder base :=
  ⟨locate_of_folders h.current (fun _ => h.keeps he.free) he.leads.1,
    h.keeps he.free he.leads.2⟩

/-- A folder in which something stands is not seeded. -/
theorem seedFails_of_entryAt? {n : Name} {e : Entry} (hl : LeadsTo w folder base)
    (he : w.entryAt? (base ++ [n]) = some e) :
    SeedFails w folder (.reported (.folderNotEmpty folder.text)) := by
  refine seedFails_of_not_empty hl fun hempty => ?_
  rw [hempty.free] at he
  cases he

namespace IsEmptyFolder

section Document

variable (h : IsEmptyFolder w folder base) (hr : ¬ w.Refuses (folder.child "slideshow.yml"))

include h hr

/-- All of the starter is written, one file after the other. -/
theorem seed_eq :
    (seed w folder).1 = w.putTexts (starterAt base) ∧
      (seed w folder).2.outcome = .ok ((starterFiles folder).map (·.1)) := by
  obtain ⟨hafter, houtcome⟩ := seed_of_ok (requireEmptyFolder_iff.mpr ⟨base, h⟩)
  rw [writeTexts_eq_putTexts (writable_starter h.leads.1 h.leads.2 h.free hr)] at hafter houtcome
  exact ⟨hafter, houtcome⟩

theorem added_seed : w.Added (seed w folder).1 (starterAt base) := by
  rw [(h.seed_eq hr).1]
  refine added_putTexts (nodup_starterAt base) fun x hx => ?_
  obtain ⟨y, _, rfl⟩ := exists_of_mem_starterAt hx
  simp

theorem leadsTo_seed_of_not_refuses : LeadsTo (seed w folder).1 folder base :=
  (h.added_seed hr).leadsTo h

theorem namesIn_seed : (seed w folder).1.namesIn base = starterTexts.map Prod.fst := by
  have hnames : (w.putTexts ((starterTexts.map fun x => (Name.ofText x.1, x.2)).map fun x =>
      (base ++ [x.1], x.2))).namesIn base =
        w.namesIn base ++ (starterTexts.map fun x => (Name.ofText x.1, x.2)).map
          (Name.text ∘ Prod.fst) :=
    Workspace.namesIn_putTexts (by decide) (List.forall_mem_map.mpr fun _ _ => h.free _)
  -- Each name is shown as the text that it was made of.
  have hshown : (starterTexts.map fun x => (Name.ofText x.1, x.2)).map (Name.text ∘ Prod.fst) =
      starterTexts.map Prod.fst := by
    decide
  rw [Workspace.namesIn_eq_nil h.free, hshown, List.map_map] at hnames
  rw [(h.seed_eq hr).1]
  exact hnames

/-- What was written is found under its path. -/
theorem entry_seed {text : Text} (hx : (name, text) ∈ starterTexts) :
    (seed w folder).1.entry (folder.child name) = .ok (fileOf text) := by
  have hnames : ∀ n ∈ starterTexts.map Prod.fst, n.IsName ∧ n ≠ Path.above ∧
      Workspace.byteLength n ≤ Workspace.byteLength "slideshow.yml" := by
    decide
  obtain ⟨hname, habove, hle⟩ := hnames name (List.mem_map_of_mem hx)
  have hl := h.leadsTo_seed_of_not_refuses hr
  have hrname : ¬ (seed w folder).1.Refuses (folder.child name) := by
    rw [Workspace.refuses_child_iff hl.1 hl.2 hname,
      ← Workspace.refuses_child_iff h.leads.1 h.leads.2 hname]
    exact fun hrefused => hr (hrefused.mono h.leads.1 h.leads.2 hname (by decide) hle)
  exact Workspace.entry_child hl hname habove hrname
    ((h.added_seed hr).here _ (mem_starterAt hx))

theorem not_refusesEntry_seed : ¬ RefusesEntry (seed w folder).1 folder := by
  rintro ⟨n, hn, hrefused⟩
  rw [Workspace.names_of_locate (h.leadsTo_seed_of_not_refuses hr).1, h.namesIn_seed hr] at hn
  obtain ⟨⟨n, text⟩, hx, rfl⟩ := List.mem_map.mp hn
  rw [Workspace.Refuses, h.entry_seed hr hx] at hrefused
  cases hrefused

theorem documentNames_seed :
    documentNames (seed w folder).1 folder = .ok [Text.ofString "slideshow.yml"] := by
  have hl := h.leadsTo_seed_of_not_refuses hr
  have hfile := (h.added_seed hr).here _ (mem_starterAt document_mem_starterTexts)
  have hdocument : CommandLine.hasDocument (seed w folder).1 base "slideshow.yml" = true := by
    have hname : isDocumentName "slideshow.yml" = true := by decide
    rw [CommandLine.hasDocument, hname, hfile]
    rfl
  -- The pictures have another suffix.
  have hpicture : ∀ n, isDocumentName n = false →
      CommandLine.hasDocument (seed w folder).1 base n = false := by
    intro n hn
    rw [CommandLine.hasDocument, hn, Bool.false_and]
  have hdocuments : documentsIn (seed w folder).1 base = [Text.ofString "slideshow.yml"] := by
    rw [documentsIn, h.namesIn_seed hr, starterTexts, List.map_cons, List.map_cons, List.map_cons,
      List.filter_cons_of_pos hdocument, List.filter_cons_of_neg, List.filter_cons_of_neg]
    · rfl
    · rw [hpicture _ (by decide)]
      exact Bool.false_ne_true
    · rw [hpicture _ (by decide)]
      exact Bool.false_ne_true
  rw [documentNames_of_not_refuses hl.1 hl.2 (h.not_refusesEntry_seed hr), hdocuments,
    List.mergeSort_singleton]

theorem loadDocument_seed :
    (loadDocument (seed w folder).1 (folder.child "slideshow.yml")).outcome = .ok .starter :=
  loadDocument_eq_ok.mpr ⟨_, _, h.entry_seed hr document_mem_starterTexts,
    loadData_starterDocument _, check_starterData⟩

/-- **Seeding an empty folder** adds the starter. -/
theorem seeds_of_not_refuses : Seeds w folder base := by
  have hfile := (h.added_seed hr).here _ (mem_starterAt document_mem_starterTexts)
  constructor
  case paths =>
    rw [(h.seed_eq hr).2, starterFiles_eq]
    rfl
  case added => exact h.added_seed hr
  case loaded => exact h.loadDocument_seed hr
  case again => exact seedFails_of_entryAt? (h.leadsTo_seed_of_not_refuses hr) hfile

/-- The slideshow of the seeded folder compiles. -/
theorem exists_compiles_seed :
    ∃ b, Compiles (seed w folder).1 folder "slideshow.yml" .starter b := by
  have hpictures : ∀ root ∈ Document.starter.pictures,
      (assetName root, starterCanvas root) ∈ starterTexts := by
    rw [pictures_starter]
    intro root hroot
    rcases List.mem_cons.mp hroot with rfl | hroot
    · exact List.mem_cons_of_mem _ List.mem_cons_self
    · obtain rfl := List.mem_singleton.mp hroot
      exact List.mem_cons_of_mem _ (List.mem_cons_of_mem _ List.mem_cons_self)
  have hcanvas : ∀ root ∈ Document.starter.pictures,
      (seed w folder).1.entry (assetPath folder root) = .ok (fileOf (starterCanvas root)) := by
    intro root hroot
    rw [assetPath_eq_child folder (isFlowId_of_mem_starter hroot)]
    exact h.entry_seed hr (hpictures root hroot)
  obtain ⟨b, hb⟩ : ∃ b, (compileDocument (seed w folder).1 .starter (.ofPath folder)).outcome =
      .ok b := exists_compiled_starter hcanvas
  exact ⟨b, exists_leadsTo.mp ⟨base, h.leadsTo_seed_of_not_refuses hr⟩,
    h.documentNames_seed hr, h.loadDocument_seed hr, hb⟩

end Document

end IsEmptyFolder

/-- What building a seeded folder does: the page is added, and the folder is not seeded again. -/
structure BuildsSeeded (w : Workspace) (folder : Path) (base : Location) : Prop where
  path : (build (seed w folder).1 folder).2.outcome = .ok (folder.child "slideshow.html")
  free : (seed w folder).1.entryAt? (base ++ [Name.ofText "slideshow.html"]) = none
  page : ∃ b, Compiles (seed w folder).1 folder "slideshow.yml" .starter b ∧
    (seed w folder).1.Replaced (build (seed w folder).1 folder).1
      (base ++ [Name.ofText "slideshow.html"]) (fileOf (b.render "slideshow"))
  again : SeedFails (build (seed w folder).1 folder).1 folder
    (.reported (.folderNotEmpty folder.text))

namespace IsEmptyFolder

variable (h : IsEmptyFolder w folder base)

include h

/-- The page has the longest name. -/
theorem not_refuses_document (hr : ¬ w.Refuses (folder.child "slideshow.html")) :
    ¬ w.Refuses (folder.child "slideshow.yml") :=
  fun hrefused => hr (hrefused.mono h.leads.1 h.leads.2 (by decide) (by decide) (by decide))

section Page

variable (hr : ¬ w.Refuses (folder.child "slideshow.html"))

include hr

/-- The place of the page is not one of the starter's. -/
theorem page_free : (seed w folder).1.entryAt? (base ++ [Name.ofText "slideshow.html"]) = none := by
  rw [(h.added_seed (h.not_refuses_document hr)).elsewhere, h.free]
  intro hmem
  obtain ⟨x, hx, hplace⟩ := List.mem_map.mp hmem
  obtain ⟨y, hy, rfl⟩ := exists_of_mem_starterAt hx
  have hname : Name.ofText "slideshow.html" ∈ starterTexts.map fun x => Name.ofText x.1 := by
    rw [← List.singleton_inj.mp (List.append_cancel_left hplace)]
    exact List.mem_map_of_mem hy
  revert hname
  decide

theorem canWrite_page : (seed w folder).1.CanWrite (folder.child "slideshow.html")
    (base ++ [Name.ofText "slideshow.html"]) := by
  have hl := h.leadsTo_seed_of_not_refuses (h.not_refuses_document hr)
  have hname : Text.IsName "slideshow.html" := by decide
  refine Workspace.canWrite_child hl.1 hl.2 hname (by decide) (h.page_free hr) ?_
  rw [Workspace.refuses_child_iff hl.1 hl.2 hname,
    ← Workspace.refuses_child_iff h.leads.1 h.leads.2 hname]
  exact hr

/-- **Building a seeded folder** adds the page. -/
theorem buildsSeeded_of_not_refuses : BuildsSeeded w folder base := by
  have hdocument := h.not_refuses_document hr
  have hl := h.leadsTo_seed_of_not_refuses hdocument
  have hw := h.canWrite_page hr
  obtain ⟨b, hc⟩ := h.exists_compiles_seed hdocument
  have htitle : titleOf "slideshow.yml" = "slideshow" := by decide
  have hname : pageName "slideshow.yml" = "slideshow.html" := by decide
  have ht : (b.render (titleOf "slideshow.yml")).IsUnicode :=
    hc.isUnicode_iff.mpr ⟨by rw [htitle]; exact Text.isUnicode_ofString _, isUnicode_starter⟩
  obtain ⟨houtcome, hreplaced⟩ := build_of_isUnicode hc (hname ▸ hw) ht
  rw [hname] at houtcome
  rw [htitle] at hreplaced
  constructor
  case path => exact houtcome
  case free => exact h.page_free hr
  case page => exact ⟨b, hc, hreplaced⟩
  case again =>
    -- The document is still there, so the folder is not empty.
    have hne : base ++ [Name.ofText "slideshow.yml"] ≠ base ++ [Name.ofText "slideshow.html"] :=
      fun heq => absurd (List.singleton_inj.mp (List.append_cancel_left heq)) (by decide)
    have hfile := (hreplaced.elsewhere _ hne).trans
      ((h.added_seed hdocument).here _ (mem_starterAt document_mem_starterTexts))
    have hfolders := hreplaced.folders hw.free
    have hl' : LeadsTo (build (seed w folder).1 folder).1 folder base :=
      ⟨Workspace.locate_of_folders hreplaced.current hfolders hl.1, hfolders base hl.2⟩
    exact seedFails_of_entryAt? hl' hfile

end Page

theorem seeds_iff : Seeds w folder base ↔ ¬ w.Refuses (folder.child "slideshow.yml") := by
  refine ⟨fun hs hr => ?_, h.seeds_of_not_refuses⟩
  have hpaths := hs.paths
  rw [(seedFails_of_refused h hr).1] at hpaths
  cases hpaths

/-- Whether it is seeded or not, the folder stays where it is. -/
theorem leadsTo_seed : LeadsTo (seed w folder).1 folder base := by
  by_cases hr : w.Refuses (folder.child "slideshow.yml")
  · rw [(seedFails_of_refused h hr).2]
    exact h.leads
  · exact h.leadsTo_seed_of_not_refuses hr

theorem buildsSeeded_iff :
    BuildsSeeded w folder base ↔ ¬ w.Refuses (folder.child "slideshow.html") := by
  refine ⟨fun hb => ?_, h.buildsSeeded_of_not_refuses⟩
  -- A build that succeeds has written the page, so its path could be followed.
  obtain ⟨_, _, _, place, _, hw, _, hpage⟩ := exists_of_build hb.path
  rw [← hpage] at hw
  have hname : Text.IsName "slideshow.html" := by decide
  rw [Workspace.refuses_child_iff h.leads.1 h.leads.2 hname,
    ← Workspace.refuses_child_iff h.leadsTo_seed.1 h.leadsTo_seed.2 hname, Workspace.refuses_iff,
    hw.leads]
  simp

end IsEmptyFolder

/-! ### Seeding and building -/

/-- Seeding and building fit together: an empty folder is seeded and then built, any other folder
and a path to no folder are reported, and nothing changes then. -/
structure SeedsSafely (w : Workspace) (folder : Path) : Prop where
  empty : ∀ base, IsEmptyFolder w folder base → Seeds w folder base ∧ BuildsSeeded w folder base
  notEmpty : ∀ base, LeadsTo w folder base → ¬ IsEmptyFolder w folder base →
    SeedFails w folder (.reported (.folderNotEmpty folder.text))
  missing : (¬ ∃ base, LeadsTo w folder base) →
    SeedFails w folder (.reported (.folderNotFound folder.text))

/-- A path is too long: that of the folder, or that of the page in a folder that is empty. -/
def IsOutOfReach (w : Workspace) (folder : Path) : Prop :=
  w.Refuses folder ∨
    ∃ base, IsEmptyFolder w folder base ∧ w.Refuses (folder.child "slideshow.html")

theorem LeadsTo.not_refuses (hl : LeadsTo w folder base) : ¬ w.Refuses folder := by
  rw [Workspace.refuses_iff, hl.1]
  simp

theorem seedsSafely_iff_not_isOutOfReach : SeedsSafely w folder ↔ ¬ IsOutOfReach w folder := by
  constructor
  · rintro hs (hr | ⟨base, h, hr⟩)
    · -- The folder is missing, and another failure is reported.
      have hmissing := (hs.missing fun ⟨base, hl⟩ => hl.not_refuses hr).1
      rw [(seedFails_of_refuses hr).1] at hmissing
      cases hmissing
    · exact h.buildsSeeded_iff.mp (hs.empty base h).2 hr
  · intro hr
    rw [IsOutOfReach, not_or, not_exists] at hr
    constructor
    case empty =>
      intro base h
      have hpage : ¬ w.Refuses (folder.child "slideshow.html") := fun hp => hr.2 base ⟨h, hp⟩
      exact ⟨h.seeds_iff.mpr (h.not_refuses_document hpage), h.buildsSeeded_iff.mpr hpage⟩
    case notEmpty => exact fun base => seedFails_of_not_empty
    case missing => exact seedFails_of_missing hr.1

/-- Seeding fails, or it adds the starter to an empty folder. -/
theorem seedFails_or_seeds (w : Workspace) (folder : Path) :
    (∃ f, SeedFails w folder f) ∨ ∃ base, IsEmptyFolder w folder base ∧ Seeds w folder base := by
  by_cases hempty : ∃ base, IsEmptyFolder w folder base
  · obtain ⟨base, h⟩ := hempty
    by_cases hr : w.Refuses (folder.child "slideshow.yml")
    · exact Or.inl ⟨_, seedFails_of_refused h hr⟩
    · exact Or.inr ⟨base, h, h.seeds_iff.mpr hr⟩
  · left
    by_cases hl : ∃ base, LeadsTo w folder base
    · obtain ⟨base, hl⟩ := hl
      exact ⟨_, seedFails_of_not_empty hl fun h => hempty ⟨base, h⟩⟩
    · by_cases hr : w.Refuses folder
      · exact ⟨_, seedFails_of_refuses hr⟩
      · exact ⟨_, seedFails_of_missing hr hl⟩

/-- **Seeding and building fit together** unless a path is too long.  In an empty folder this is the
path of the document, which then is not seeded, or that of the page, which then is not built.  In
any case seeding that fails changes nothing, and what stood there before is still there. -/
theorem seedsSafely_iff (w : Workspace) (folder : Path) :
    (SeedsSafely w folder ↔ ¬ IsOutOfReach w folder) ∧
    (∀ base, IsEmptyFolder w folder base →
      (Seeds w folder base ↔ ¬ w.Refuses (folder.child "slideshow.yml")) ∧
      (BuildsSeeded w folder base ↔ ¬ w.Refuses (folder.child "slideshow.html"))) ∧
    (∀ f, (seed w folder).2.outcome = .error f → (seed w folder).1 = w) ∧
    ∀ q e, w.entryAt? q = some e → (seed w folder).1.entryAt? q = some e := by
  refine ⟨seedsSafely_iff_not_isOutOfReach, fun base h => ⟨h.seeds_iff, h.buildsSeeded_iff⟩, ?_, ?_⟩
  · intro f hf
    rcases seedFails_or_seeds w folder with ⟨_, hfails⟩ | ⟨base, _, hs⟩
    · exact hfails.2
    · rw [hs.paths] at hf
      cases hf
  · intro q e hq
    rcases seedFails_or_seeds w folder with ⟨_, hfails⟩ | ⟨base, h, hs⟩
    · rw [hfails.2, hq]
    · exact hs.added.keeps h.free hq

/-- An empty folder beside a talk that someone else works on. -/
def emptyTalk : Workspace :=
  CommandLine.plainTalk.put ["new"] .folder

theorem seedsSafely_iff_emptyTalk :
    IsEmptyFolder emptyTalk (.ofText "talk/../new//") ["new"] ∧
      SeedsSafely emptyTalk (.ofText "talk/../new//") ∧
      Seeds emptyTalk (.ofText "talk/../new//") ["new"] ∧
      BuildsSeeded emptyTalk (.ofText "talk/../new//") ["new"] := by
  have hl : LeadsTo emptyTalk (.ofText "talk/../new//") ["new"] :=
    ⟨by decide +kernel, by decide +kernel⟩
  have h : IsEmptyFolder emptyTalk (.ofText "talk/../new//") ["new"] :=
    ⟨hl, (Workspace.isEmptyFolder_iff hl.1).mp (by decide +kernel)⟩
  have hpage : ¬ emptyTalk.Refuses ((Path.ofText "talk/../new//").child "slideshow.html") := by
    decide +kernel
  obtain ⟨hsafe, hparts, _⟩ := seedsSafely_iff emptyTalk (.ofText "talk/../new//")
  have hreach : ¬ IsOutOfReach emptyTalk (.ofText "talk/../new//") := by
    rintro (hr | ⟨_, _, hr⟩)
    · exact hl.not_refuses hr
    · exact hpage hr
  have hdocument := h.not_refuses_document hpage
  exact ⟨h, hsafe.mpr hreach, (hparts _ h).1.mpr hdocument, (hparts _ h).2.mpr hpage⟩

/-- No folder is there, and seeding it does not report that. -/
theorem longFolder_not_seedsSafely :
    (¬ ∃ base, LeadsTo (Workspace.mk [] []) longFolder base) ∧
      SeedFails (Workspace.mk [] []) longFolder (.path .nameTooLong longFolder.text) ∧
      ¬ SeedsSafely (Workspace.mk [] []) longFolder := by
  have hr : (Workspace.mk [] []).Refuses longFolder := by decide +kernel
  refine ⟨fun ⟨base, hl⟩ => hl.not_refuses hr, seedFails_of_refuses hr, ?_⟩
  exact fun hs => seedsSafely_iff_not_isOutOfReach.mp hs (Or.inl hr)

end SvgDeck
