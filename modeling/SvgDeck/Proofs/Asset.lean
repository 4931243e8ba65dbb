/-
Finding and reading pictures.

The pictures of a document are looked for in one pass and read in another.  The first
pass asks for all of them before it says which are missing (`resolveAssets_eq_ok`,
`resolveAssets_eq_error`); the second stops at the first picture that cannot be used
(`buildFragments_eq_ok`, `buildFragments_eq_error`).  Both go over the ids without
repetitions, so the two lists keep step and every picture stays with its own id.
-/
import SvgDeck.Asset
import SvgDeck.Proofs.FirstSeen
import SvgDeck.Proofs.Workspace

namespace SvgDeck

variable {w : Workspace}

/-! ### Looking for pictures -/

/-- The search for pictures ends at the path: it is too long, or it is that of a missing file and
cannot be shown, as it does not stand for bytes. -/
def Workspace.BalksAt (w : Workspace) (p : Path) : Prop := w.Refuses p ∨ ¬ p.IsNamed

instance (p : Path) : Decidable (w.BalksAt p) :=
  inferInstanceAs (Decidable (w.Refuses p ∨ ¬ p.IsNamed))

/-- The failure in which the search ends at the path. -/
inductive BalksWith (w : Workspace) (p : Path) : Failure → Prop
  | long (h : w.Refuses p) : BalksWith w p (.path .nameTooLong p.text)
  | unnamed {f : Failure} (h : w.shown p = .error f) : BalksWith w p f

theorem absence_eq_error {p : Path} {f : Failure} :
    absence w p = .error f ↔ BalksWith w p f := by
  rw [absence, bind_eq_error, Workspace.exists?_eq_error]
  simp only [Workspace.exists?_eq_ok]
  constructor
  · rintro (⟨hr, rfl⟩ | ⟨_, ⟨_, rfl⟩, h⟩)
    · exact .long hr
    · cases hs : w.stands p with
      | true => simp [hs] at h
      | false =>
        simp only [hs, Bool.false_eq_true, if_false, bind_eq_error] at h
        rcases h with h | ⟨_, _, h⟩
        · exact .unnamed h
        · cases h
  · intro h
    cases h with
    | long hr => exact Or.inl ⟨hr, rfl⟩
    | unnamed h =>
      -- A path that cannot be shown leads to nothing, and it is not refused.
      have hnamed := Workspace.fails_shown_iff.mp ⟨f, h⟩
      have hr : ¬ w.Refuses p := fun hr =>
        hnamed (Path.isName_text_iff.mp (Workspace.isName_of_refuses hr)).2
      have hs : w.stands p = false :=
        eq_false_of_ne_true fun hs => hnamed (Workspace.isNamed_of_stands hs)
      exact Or.inr ⟨_, ⟨hr, rfl⟩, by simp [hs, h]⟩

/-- The search ends with a fault of the path. -/
theorem BalksWith.exists_eq {p : Path} {f : Failure} (h : BalksWith w p f) :
    ∃ fault t, f = .path fault t := by
  cases h with
  | long _ => exact ⟨_, _, rfl⟩
  | unnamed h =>
    obtain ⟨fault, rfl⟩ := Workspace.shown_fault h
    exact ⟨_, _, rfl⟩

theorem BalksWith.nameTooLong {p : Path} {t : Text}
    (h : BalksWith w p (.path .nameTooLong t)) : w.Refuses p ∧ t = p.text := by
  cases h with
  | long hr => exact ⟨hr, rfl⟩
  | unnamed h =>
    obtain ⟨fault, hcontra⟩ := Workspace.shown_fault h
    cases hcontra

theorem exists_balksWith {p : Path} (h : w.BalksAt p) : ∃ f, BalksWith w p f := by
  rcases h with hr | hnamed
  · exact ⟨_, .long hr⟩
  · obtain ⟨f, hf⟩ := Workspace.fails_shown_iff.mpr hnamed
    exact ⟨f, .unnamed hf⟩

/-- What is found ends no search. -/
theorem Workspace.not_balksAt_of_stands {p : Path} (hs : w.stands p = true) : ¬ w.BalksAt p := by
  rintro (hr | hnamed)
  · obtain ⟨e, he⟩ := stands_eq_true.mp hs
    rw [Refuses, he] at hr
    cases hr
  · exact hnamed (isNamed_of_stands hs)

theorem fails_absence_iff {p : Path} : Fails (absence w p) ↔ w.BalksAt p := by
  simp only [Fails, absence_eq_error]
  constructor
  · rintro ⟨f, h⟩
    cases h with
    | long hr => exact Or.inl hr
    | unnamed h => exact Or.inr (Workspace.fails_shown_iff.mp ⟨f, h⟩)
  · exact exists_balksWith

theorem absence_eq_ok {p : Path} {t : Option Text} :
    absence w p = .ok t ↔
      ¬ w.BalksAt p ∧ (if w.stands p then none else some (w.shownPath p)) = t := by
  simp only [absence, bind_eq_ok, Workspace.exists?_eq_ok, Workspace.BalksAt, not_or, not_not]
  constructor
  · rintro ⟨_, ⟨hr, rfl⟩, h⟩
    cases hs : w.stands p with
    | true =>
      rw [hs, if_pos rfl] at h
      exact ⟨⟨hr, Workspace.isNamed_of_stands hs⟩, Except.ok.inj h⟩
    | false =>
      rw [hs, if_neg Bool.false_ne_true, bind_eq_ok] at h
      obtain ⟨shown, hshown, h⟩ := h
      obtain ⟨hnamed, rfl⟩ := Workspace.shown_eq_ok.mp hshown
      exact ⟨⟨hr, hnamed⟩, Except.ok.inj h⟩
  · rintro ⟨⟨hr, hnamed⟩, rfl⟩
    refine ⟨_, ⟨hr, rfl⟩, ?_⟩
    cases w.stands p with
    | true => rfl
    | false =>
      rw [if_neg Bool.false_ne_true, Workspace.shown_eq_ok.mpr ⟨hnamed, rfl⟩]
      rfl

theorem absent_eq_error {paths : List Path} {f : Failure} :
    absent w paths = .error f ↔ ∃ p, IsFirst w.BalksAt paths p ∧ BalksWith w p f := by
  rw [absent, bind_eq_error, or_iff_left (by simp), mapM_eq_error]
  simp only [fails_absence_iff, absence_eq_error]

theorem absent_eq_ok {paths : List Path} {missing : List Text} :
    absent w paths = .ok missing ↔ (∀ p ∈ paths, ¬ w.BalksAt p) ∧
      missing = (paths.filter fun p => !w.stands p).map w.shownPath := by
  have hkept : (paths.filter fun p => !w.stands p).map w.shownPath =
      paths.filterMap fun p => if w.stands p then none else some (w.shownPath p) := by
    induction paths with
    | nil => rfl
    | cons p paths ih =>
      cases hs : w.stands p with
      | true => simpa [hs] using ih
      | false => simpa [hs] using ih
  rw [hkept, ← mapM_filterMap_eq_ok fun p t => absence_eq_ok]
  simp only [absent, bind_eq_ok, pure_eq_ok, Except.ok.injEq]

theorem outcome_forM_write (level : Level) (line : Text → Text) (ts : List Text) :
    (ts.forM fun t => Run.write level (line t)).outcome = .ok () := by
  induction ts with
  | nil => rfl
  | cons t ts ih =>
    show (Run.write level (line t) >>= fun _ =>
      ts.forM fun t => Run.write level (line t)).outcome = _
    rw [Run.outcome_bind, Run.outcome_write, ok_bind, ih]

/-- The file of a picture as it is reported missing. -/
def shownAsset (w : Workspace) (folder : Path) (root : Text) : Text :=
  w.shownPath (assetPath folder root)

/-- The ids of the pictures that are not there. -/
def missingIn (w : Workspace) (folder : Path) (roots : List Text) : List Text :=
  roots.filter fun root => !w.stands (assetPath folder root)

theorem missingIn_eq_nil {folder : Path} {roots : List Text} :
    missingIn w folder roots = [] ↔ ∀ root ∈ roots, w.stands (assetPath folder root) = true := by
  simp [missingIn]

theorem outcome_resolveAssets {folder : FolderName} {roots : List Text} (hn : roots.Nodup) :
    (resolveAssets w folder roots).outcome = (do
      let missing ← absent w (roots.map (assetPath folder.path))
      if missing = [] then .ok (roots.map (assetPath folder.path))
      else .error (.reported (.missingAssets folder.shown missing))) := by
  rw [resolveAssets, Text.distinct_of_nodup hn]
  simp only [Run.outcome_bind, Run.outcome_ofExcept]
  refine congrArg _ (funext fun missing => ?_)
  by_cases hm : missing = []
  · rw [if_pos hm, if_pos hm]
    rfl
  · rw [if_neg hm, if_neg hm, Run.outcome_bind, outcome_forM_write]
    rfl

/-- The missing files are shown in the order of the ids. -/
theorem shown_filter_map_assetPath (folder : Path) (roots : List Text) :
    ((roots.map (assetPath folder)).filter fun p => !w.stands p).map w.shownPath =
      (missingIn w folder roots).map (shownAsset w folder) := by
  rw [List.filter_map, List.map_map]
  rfl

theorem resolveAssets_eq_ok {folder : FolderName} {roots : List Text} {paths : List Path}
    (hn : roots.Nodup) :
    (resolveAssets w folder roots).outcome = .ok paths ↔
      (∀ root ∈ roots, ¬ w.BalksAt (assetPath folder.path root)) ∧
      missingIn w folder.path roots = [] ∧ paths = roots.map (assetPath folder.path) := by
  simp only [outcome_resolveAssets hn, bind_eq_ok, absent_eq_ok, List.forall_mem_map,
    shown_filter_map_assetPath]
  constructor
  · rintro ⟨missing, ⟨hall, rfl⟩, h⟩
    by_cases hm : missingIn w folder.path roots = []
    · rw [hm, if_pos List.map_nil] at h
      exact ⟨hall, hm, (Except.ok.inj h).symm⟩
    · rw [if_neg (by simpa using hm)] at h
      cases h
  · rintro ⟨hall, hm, rfl⟩
    exact ⟨_, ⟨hall, rfl⟩, by rw [hm, if_pos List.map_nil]⟩

theorem resolveAssets_eq_error {folder : FolderName} {roots : List Text} {f : Failure}
    (hn : roots.Nodup) :
    (resolveAssets w folder roots).outcome = .error f ↔
      (∃ p, IsFirst w.BalksAt (roots.map (assetPath folder.path)) p ∧ BalksWith w p f) ∨
      ((∀ root ∈ roots, ¬ w.BalksAt (assetPath folder.path root)) ∧
        missingIn w folder.path roots ≠ [] ∧
        f = .reported (.missingAssets folder.shown
          ((missingIn w folder.path roots).map (shownAsset w folder.path)))) := by
  simp only [outcome_resolveAssets hn, bind_eq_error, absent_eq_error, absent_eq_ok,
    List.forall_mem_map, shown_filter_map_assetPath]
  refine or_congr Iff.rfl ⟨?_, ?_⟩
  · rintro ⟨missing, ⟨hall, rfl⟩, h⟩
    by_cases hm : missingIn w folder.path roots = []
    · rw [hm, if_pos List.map_nil] at h
      cases h
    · rw [if_neg (by simpa using hm)] at h
      exact ⟨hall, hm, (Except.error.inj h).symm⟩
  · rintro ⟨hall, hm, rfl⟩
    exact ⟨_, ⟨hall, rfl⟩, by rw [if_neg (by simpa using hm)]⟩

/-! ### Reading pictures -/

/-- The element of one picture, or why it cannot be used. -/
def fragment (w : Workspace) (folder : Path) (root : Text) : Except Failure Text := do
  let text ← readAsset w (assetPath folder root)
  let body ← extractBody text (assetPath folder root).name
  return wrapBody root body

/-- The file of a picture has a body. -/
inductive HasBody (w : Workspace) (folder : Path) (root body : Text) : Prop
  | intro {bytes : List UInt8} {text : Text}
      (file : w.entry (assetPath folder root) = .ok (.file bytes))
      (decoded : Utf8.decodeLines bytes = .ok text) (found : body? text = some body)

theorem readAsset_eq_ok {p : Path} {t : Text} :
    readAsset w p = .ok t ↔
      ∃ bytes, w.entry p = .ok (.file bytes) ∧ Utf8.decodeLines bytes = .ok t := by
  rw [readAsset, bind_eq_ok]
  simp only [Workspace.read_eq_ok]
  refine exists_congr fun bytes => and_congr_right fun _ => ?_
  cases Utf8.decodeLines bytes with
  | ok t' => simp
  | error fault => simp

theorem readAsset_eq_error {p : Path} {f : Failure} :
    readAsset w p = .error f ↔ w.read p = .error f ∨ ∃ bytes fault,
      w.entry p = .ok (.file bytes) ∧ Utf8.decodeLines bytes = .error fault ∧
      f = .reported (.unreadableAsset p.name fault) := by
  rw [readAsset, bind_eq_error]
  simp only [Workspace.read_eq_ok]
  refine or_congr Iff.rfl (exists_congr fun bytes => ?_)
  cases Utf8.decodeLines bytes with
  | ok t' => simp
  | error fault => simp [eq_comm]

theorem fragment_eq_ok {folder : Path} {root x : Text} :
    fragment w folder root = .ok x ↔
      ∃ body, HasBody w folder root body ∧ x = wrapBody root body := by
  simp only [fragment, bind_eq_ok, readAsset_eq_ok]
  constructor
  · rintro ⟨text, ⟨bytes, hfile, hdec⟩, body, hbody, hx⟩
    rw [extractBody] at hbody
    cases hb : body? text with
    | none => simp [hb] at hbody
    | some b =>
      rw [hb] at hbody
      cases hbody
      exact ⟨body, ⟨hfile, hdec, hb⟩, (Except.ok.inj hx).symm⟩
  · rintro ⟨body, ⟨hfile, hdec, hb⟩, rfl⟩
    exact ⟨_, ⟨_, hfile, hdec⟩, body, by rw [extractBody, hb], rfl⟩

theorem fragment_eq_error {folder : Path} {root : Text} {f : Failure} :
    fragment w folder root = .error f ↔ w.read (assetPath folder root) = .error f ∨
      (∃ bytes fault, w.entry (assetPath folder root) = .ok (.file bytes) ∧
        Utf8.decodeLines bytes = .error fault ∧
        f = .reported (.unreadableAsset (assetPath folder root).name fault)) ∨
      ∃ bytes text, w.entry (assetPath folder root) = .ok (.file bytes) ∧
        Utf8.decodeLines bytes = .ok text ∧ body? text = none ∧
        f = .reported (.missingBody (assetPath folder root).name) := by
  simp only [fragment, bind_eq_error, readAsset_eq_error, readAsset_eq_ok, or_assoc]
  refine or_congr Iff.rfl (or_congr Iff.rfl ⟨?_, ?_⟩)
  · rintro ⟨text, ⟨bytes, hfile, hdec⟩, h | ⟨_, _, h⟩⟩
    · rw [extractBody] at h
      cases hb : body? text with
      | none =>
        rw [hb] at h
        exact ⟨bytes, text, hfile, hdec, hb, (Except.error.inj h).symm⟩
      | some b => simp [hb] at h
    · cases h
  · rintro ⟨bytes, text, hfile, hdec, hb, rfl⟩
    exact ⟨text, ⟨bytes, hfile, hdec⟩, Or.inl (by rw [extractBody, hb])⟩

/-- Every picture is read from its own file. -/
theorem outcome_buildEach (folder : Path) (roots : List Text) :
    (buildEach w (roots.zip (roots.map (assetPath folder)))).outcome =
      roots.mapM (fragment w folder) := by
  induction roots with
  | nil => rfl
  | cons root roots ih =>
    rw [List.map_cons, List.zip_cons_cons, buildEach, List.mapM_cons, fragment]
    simp only [Run.outcome_bind, Run.outcome_ofExcept, Run.outcome_write, ih, bind_assoc]
    rfl

theorem buildFragments_eq_ok {folder : FolderName} {roots : List Text} {x : Text}
    (hn : roots.Nodup) :
    (buildFragments w folder roots).outcome = .ok x ↔
      (∀ root ∈ roots, ¬ w.BalksAt (assetPath folder.path root)) ∧
      missingIn w folder.path roots = [] ∧
      ∃ fragments, roots.mapM (fragment w folder.path) = .ok fragments ∧
        x = Text.join "\n\n" fragments := by
  simp only [buildFragments, Text.distinct_of_nodup hn, Run.outcome_bind, bind_eq_ok,
    resolveAssets_eq_ok hn, Run.outcome_write, Run.outcome_pure]
  constructor
  · rintro ⟨_, ⟨hall, hm, rfl⟩, fragments, hfrag, _, _, hx⟩
    exact ⟨hall, hm, fragments, by rw [← outcome_buildEach, hfrag], (Except.ok.inj hx).symm⟩
  · rintro ⟨hall, hm, fragments, hfrag, rfl⟩
    exact ⟨_, ⟨hall, hm, rfl⟩, fragments, by rw [outcome_buildEach, hfrag], (), trivial, rfl⟩

theorem buildFragments_eq_error {folder : FolderName} {roots : List Text} {f : Failure}
    (hn : roots.Nodup) :
    (buildFragments w folder roots).outcome = .error f ↔
      (resolveAssets w folder roots).outcome = .error f ∨
      ((∀ root ∈ roots, ¬ w.BalksAt (assetPath folder.path root)) ∧
        missingIn w folder.path roots = [] ∧
        roots.mapM (fragment w folder.path) = .error f) := by
  simp only [buildFragments, Text.distinct_of_nodup hn, Run.outcome_bind, bind_eq_error,
    resolveAssets_eq_ok hn, Run.outcome_write, Run.outcome_pure]
  refine or_congr Iff.rfl ⟨?_, ?_⟩
  · rintro ⟨_, ⟨hall, hm, rfl⟩, h | ⟨_, _, h | ⟨_, _, h⟩⟩⟩
    · exact ⟨hall, hm, by rw [← outcome_buildEach, h]⟩
    · cases h
    · cases h
  · rintro ⟨hall, hm, h⟩
    exact ⟨_, ⟨hall, hm, rfl⟩, Or.inl (by rw [outcome_buildEach, h])⟩

end SvgDeck
