/-
Pictures and their ids.

The picture of an id stands in the folder itself, under the id with the suffix of pictures behind
it.  An id holds no slash, so it adds one part to the path; and with the suffix even one or two
points are a name like any other (`isPictureOf_assetPath`).

Pictures are looked for in one pass and read in another, and each pass drops the ids that it has
seen before.  Both end up with the ids in the order in which they are first seen
(`resolveAssets_eq_ok_iff`, `buildFragments_eq_ok_iff`), so the path that stands beside an id is its
own.

* `pictures_keepApart` — this holds of every folder and every list of ids.
-/
import SvgDeck.Proofs.DocumentSearch

namespace SvgDeck

variable {w : Workspace} {p : Path} {root root' : Text}

/-! ### Where a picture stands -/

/-- `p` is the path of an entry of the folder itself, called by the id with the suffix of
pictures. -/
structure IsPictureOf (folder : Path) (root : Text) (p : Path) : Prop where
  parent : p.parent = folder
  parts : p.parts = folder.parts ++ [assetName root]
  name : p.name = assetName root
  stem : p.stem = root
  suffix : p.suffix = Text.ofString ".svg"
  /-- No part of the path is dropped or leads up when it is seen from the top. -/
  resolved : ∀ current, p.resolve current = (folder.resolve current).child (assetName root)
  /-- No part is dropped when the path is read from its print. -/
  reread : folder.IsRead → Path.ofText p.text = p
  /-- The path leads into the folder, to what is called by that name there. -/
  place : ∀ (w : Workspace) base, LeadsTo w folder base → ¬ w.Refuses p →
    w.locate p = .ok (base ++ [Name.ofText (assetName root)])

theorem ne_nil_of_isFlowId (h : isFlowId root = true) : root ≠ [] := by
  rintro rfl
  cases h

theorem isPart_assetName (h : isFlowId root = true) : Path.IsPart (assetName root) :=
  ⟨assetName_ne (by decide), assetName_ne (by decide), slash_not_mem_assetName h⟩

/-- The suffix starts behind the id, even if the id has points of its own. -/
theorem suffixStart_assetName (h : isFlowId root = true) :
    Path.suffixStart (assetName root) = root.length := by
  have hname : assetName root = root ++ CodePoint.ofChar '.' :: Text.ofString "svg" := rfl
  rw [hname]
  exact Path.suffixStart_append (ne_nil_of_isFlowId h) (by decide) (by decide)

/-- **The picture of an id stands in the folder itself**, under the id and the suffix. -/
theorem isPictureOf_assetPath (folder : Path) (h : isFlowId root = true) :
    IsPictureOf folder root (assetPath folder root) := by
  have habove : assetName root ≠ Path.above := assetName_ne (by decide)
  rw [assetPath_eq_child folder h]
  constructor
  case parent => exact Path.parent_child folder _
  case parts => rfl
  case name => exact Path.name_child folder _
  case stem =>
    rw [Path.stem_child, suffixStart_assetName h]
    exact List.take_left
  case suffix =>
    rw [Path.suffix_child, suffixStart_assetName h]
    exact List.drop_left
  case resolved =>
    intro current
    exact Path.resolve_child current folder habove
  case reread =>
    intro hread
    exact Path.ofText_text (hread.child (isPart_assetName h))
  case place =>
    intro w base hleads hr
    exact Workspace.locate_child_of_not_refuses hleads.1 hleads.2 (isName_assetName h) habove hr

/-- Pictures whose paths look the same have the same id. -/
theorem eq_of_text_assetPath {folder : Path} (h : isFlowId root = true)
    (h' : isFlowId root' = true)
    (htext : (assetPath folder root).text = (assetPath folder root').text) : root = root' := by
  rw [assetPath_eq_child folder h, assetPath_eq_child folder h'] at htext
  exact assetName_injective (Path.text_child_injective htext)

theorem assetPath_ne {folder : Path} (h : isFlowId root = true) (h' : isFlowId root' = true)
    (hne : root ≠ root') : assetPath folder root ≠ assetPath folder root' := by
  intro hpath
  exact hne (eq_of_text_assetPath h h' (congrArg Path.text hpath))

/-! ### Both passes over the ids -/

variable {folder : FolderName} {roots : List Text}

/-- Looking for pictures drops the repetitions itself. -/
theorem resolveAssets_distinct :
    resolveAssets w folder (Text.distinct roots) = resolveAssets w folder roots := by
  rw [resolveAssets, resolveAssets, Text.distinct_distinct]

theorem buildFragments_distinct :
    buildFragments w folder (Text.distinct roots) = buildFragments w folder roots := by
  rw [buildFragments, buildFragments, Text.distinct_distinct]

/-- The paths are found exactly if all pictures are there. -/
theorem resolveAssets_eq_ok_iff {paths : List Path} :
    (resolveAssets w folder roots).outcome = .ok paths ↔
      (∀ root ∈ roots, w.stands (assetPath folder.path root) = true) ∧
        paths = (Text.distinct roots).map (assetPath folder.path) := by
  rw [← resolveAssets_distinct, resolveAssets_eq_ok (Text.nodup_distinct roots), missingIn_eq_nil]
  simp only [Text.mem_distinct]
  constructor
  · rintro ⟨_, hstands, rfl⟩
    exact ⟨hstands, rfl⟩
  · rintro ⟨hstands, rfl⟩
    exact ⟨fun root hroot => Workspace.not_balksAt_of_stands (hstands root hroot), hstands, rfl⟩

theorem forall₂_fragment {folder : Path} {ids bodies : List Text}
    (h : List.Forall₂ (HasBody w folder) ids bodies) :
    List.Forall₂ (fun root x => fragment w folder root = .ok x) ids
      (List.zipWith wrapBody ids bodies) := by
  induction h with
  | nil => exact .nil
  | cons hbody _ ih => exact .cons (fragment_eq_ok.mpr ⟨_, hbody, rfl⟩) ih

theorem HasBody.stands {folder : Path} {body : Text} (h : HasBody w folder root body) :
    w.stands (assetPath folder root) = true := by
  obtain ⟨hfile, _, _⟩ := h
  exact Workspace.stands_eq_true.mpr ⟨_, hfile⟩

/-- The pictures are put on the page exactly if each has a body, and each body comes from the file
of its own id. -/
theorem buildFragments_eq_ok_iff {x : Text} :
    (buildFragments w folder roots).outcome = .ok x ↔
      ∃ bodies, List.Forall₂ (HasBody w folder.path) (Text.distinct roots) bodies ∧
        x = Text.join "\n\n" (List.zipWith wrapBody (Text.distinct roots) bodies) := by
  rw [← buildFragments_distinct, buildFragments_eq_ok (Text.nodup_distinct roots), missingIn_eq_nil]
  constructor
  · rintro ⟨_, _, fragments, hfragments, rfl⟩
    obtain ⟨bodies, hbodies, rfl⟩ := exists_bodies (mapM_eq_ok.mp hfragments)
    exact ⟨bodies, hbodies, rfl⟩
  · rintro ⟨bodies, hbodies, rfl⟩
    have hstands : ∀ root ∈ Text.distinct roots, w.stands (assetPath folder.path root) = true := by
      intro root hroot
      obtain ⟨body, hbody⟩ := exists_forall₂.mp ⟨bodies, hbodies⟩ root hroot
      exact hbody.stands
    refine ⟨fun root hroot => Workspace.not_balksAt_of_stands (hstands root hroot), hstands, _, ?_,
      rfl⟩
    exact mapM_eq_ok.mpr (forall₂_fragment hbodies)

/-! ### Ids keep apart -/

/-- The ids of a list have pictures of their own in a folder, and no step mixes them up. -/
structure KeepsApart (w : Workspace) (folder : FolderName) (roots : List Text) : Prop where
  inside : ∀ root ∈ roots, IsPictureOf folder.path root (assetPath folder.path root)
  /-- Different ids have different paths, in print, too. -/
  apart : ∀ root ∈ roots, ∀ root' ∈ roots, root ≠ root' →
    assetPath folder.path root ≠ assetPath folder.path root' ∧
      (assetPath folder.path root).text ≠ (assetPath folder.path root').text
  /-- If all pictures are there, and only then, there is one path for each id, where it is first
  seen. -/
  resolved : ∀ paths, (resolveAssets w folder roots).outcome = .ok paths ↔
    (∀ root ∈ roots, w.stands (assetPath folder.path root) = true) ∧
      ∃ ids, FirstSeen roots ids ∧ paths = ids.map (assetPath folder.path)
  once : ∀ paths, (resolveAssets w folder roots).outcome = .ok paths → paths.Nodup
  /-- Every id stands beside its own path, and no id is left out. -/
  paired : ∀ paths, (resolveAssets w folder roots).outcome = .ok paths → ∀ root p,
    (root, p) ∈ (Text.distinct roots).zip paths ↔ root ∈ roots ∧ p = assetPath folder.path root
  /-- What the page holds under an id was read from the picture of this id. -/
  built : ∀ x, (buildFragments w folder roots).outcome = .ok x ↔
    ∃ ids bodies, FirstSeen roots ids ∧ List.Forall₂ (HasBody w folder.path) ids bodies ∧
      x = Text.join "\n\n" (List.zipWith wrapBody ids bodies)

/-- **Pictures stay in the folder and keep apart**, whatever points and dashes their ids are made
of. -/
theorem pictures_keepApart (w : Workspace) (folder : FolderName) (roots : List Text)
    (h : ∀ root ∈ roots, isFlowId root = true) : KeepsApart w folder roots := by
  constructor
  case inside =>
    intro root hroot
    exact isPictureOf_assetPath folder.path (h root hroot)
  case apart =>
    intro root hroot root' hroot' hne
    refine ⟨assetPath_ne (h root hroot) (h root' hroot') hne, fun htext => ?_⟩
    exact hne (eq_of_text_assetPath (h root hroot) (h root' hroot') htext)
  case resolved =>
    intro paths
    rw [resolveAssets_eq_ok_iff]
    refine and_congr_right fun _ => ⟨?_, ?_⟩
    · rintro rfl
      exact ⟨_, Text.firstSeen_distinct roots, rfl⟩
    · rintro ⟨ids, hids, rfl⟩
      rw [hids.eq_distinct]
  case once =>
    intro paths hpaths
    obtain ⟨_, rfl⟩ := resolveAssets_eq_ok_iff.mp hpaths
    refine (Text.nodup_distinct roots).map_on ?_
    intro root hroot root' hroot' hpath
    by_contra hne
    rw [Text.mem_distinct] at hroot hroot'
    exact assetPath_ne (h root hroot) (h root' hroot') hne hpath
  case paired =>
    intro paths hpaths root p
    obtain ⟨_, rfl⟩ := resolveAssets_eq_ok_iff.mp hpaths
    rw [← List.map_prod_left_eq_zip, List.mem_map]
    simp only [Text.mem_distinct, Prod.mk.injEq]
    constructor
    · rintro ⟨r, hr, rfl, rfl⟩
      exact ⟨hr, rfl⟩
    · rintro ⟨hr, rfl⟩
      exact ⟨root, hr, rfl, rfl⟩
  case built =>
    intro x
    rw [buildFragments_eq_ok_iff]
    constructor
    · rintro ⟨bodies, hbodies, rfl⟩
      exact ⟨_, bodies, Text.firstSeen_distinct roots, hbodies, rfl⟩
    · rintro ⟨ids, bodies, hids, hbodies, rfl⟩
      rw [← hids.eq_distinct]
      exact ⟨bodies, hbodies, rfl⟩

/-- Ids that are made of points and dashes, one of them used twice. -/
def dottedIds : List Text := [".", "..", "-x", "a.b", "."]

/-- A folder with the pictures of these ids. -/
def dottedTalk : Workspace where
  entries :=
    [(["talk"], .folder), (["talk", "..svg"], fileOf "<svg>1</svg>"),
      (["talk", "...svg"], fileOf "<svg>2</svg>"), (["talk", "-x.svg"], fileOf "<svg>3</svg>"),
      (["talk", "a.b.svg"], fileOf "<svg>4</svg>")]
  current := []

theorem pictures_keepApart_dottedIds :
    (∀ root ∈ dottedIds, isFlowId root = true) ∧
      KeepsApart dottedTalk (.ofText "talk/../talk//") dottedIds ∧
      ∃ paths, (resolveAssets dottedTalk (.ofText "talk/../talk//") dottedIds).outcome = .ok paths ∧
        paths.map Path.text = ["talk/../talk/..svg", "talk/../talk/...svg", "talk/../talk/-x.svg",
          "talk/../talk/a.b.svg"] := by
  have hids : ∀ root ∈ dottedIds, isFlowId root = true := by decide
  have hkeeps := pictures_keepApart dottedTalk (.ofText "talk/../talk//") dottedIds hids
  have hstands : ∀ root ∈ dottedIds,
      dottedTalk.stands (assetPath (FolderName.ofText "talk/../talk//").path root) = true := by
    decide +kernel
  have hseen := Text.firstSeen_distinct dottedIds
  refine ⟨hids, hkeeps, _, (hkeeps.resolved _).mpr ⟨hstands, _, hseen, rfl⟩, ?_⟩
  decide +kernel

end SvgDeck
