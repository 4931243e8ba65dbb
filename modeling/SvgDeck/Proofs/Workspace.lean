/-
What paths lead to, and what a write changes.

A path is refused if it is too long for the system (`Workspace.Refuses`); otherwise it
leads to a file, to a folder or to nothing.  The questions of a workspace are put into
these words: `exists?_eq_ok`, `isFolder_eq_ok`, `filesIn_eq_ok`, `read_eq_ok` and their
failures.

A path leads to nothing if a part of it does not stand for bytes (`isNamed_of_stands`).  Such a path
is not refused, but it cannot be shown from the top either (`shown_eq_ok`).
-/
import SvgDeck.Folder.Workspace
import SvgDeck.Proofs.Name

namespace SvgDeck

/-! ### Paths that stand for bytes -/

theorem Text.isName_join {parts : List Text} :
    IsName (join "/" parts) ↔ ∀ part ∈ parts, IsName part := by
  rw [join]
  induction parts with
  | nil => exact iff_of_true (fun c hc => absurd hc List.not_mem_nil) (by simp)
  | cons part parts ih =>
    by_cases hp : parts = []
    · simp [hp]
    · have hslash : IsName "/" := by decide
      rw [List.intercalate_cons_of_ne_nil hp, List.forall_mem_cons, isName_append, isName_append, ih]
      exact and_congr_left fun _ => and_iff_left hslash

/-- Every part of the path is a name. -/
def Path.IsNamed (p : Path) : Prop := ∀ part ∈ p.parts, part.IsName

instance (p : Path) : Decidable p.IsNamed :=
  inferInstanceAs (Decidable (∀ part ∈ p.parts, part.IsName))

theorem Path.isName_text_iff {p : Path} : p.text.IsName ↔ p.anchor.IsName ∧ p.IsNamed := by
  rw [text, IsNamed]
  by_cases hnone : p.anchor = [] ∧ p.parts = []
  · rw [if_pos hnone, hnone.1, hnone.2]
    decide
  · rw [if_neg hnone, Text.isName_append, Text.isName_join]

theorem Path.isNamed_child_iff {p : Path} {name : Text} :
    (p.child name).IsNamed ↔ p.IsNamed ∧ name.IsName := by
  rw [IsNamed, child, List.forall_mem_append, List.forall_mem_singleton]
  rfl

namespace Workspace

variable {w : Workspace} {p : Path}

theorem locate_of_isName (h : p.text.IsName) : w.locate p =
    if pathLimit < byteLength p.text then .error .nameTooLong
    else w.walk (if p.anchor = [] then w.current else []) p.parts := by
  rw [locate, Name.fault?_eq_none.mpr h]

/-- A path that leads anywhere stands for bytes. -/
theorem isName_of_locate {place : Location} (h : w.locate p = .ok place) : p.text.IsName := by
  rw [← Name.fault?_eq_none]
  rw [locate] at h
  split at h
  · cases h
  · assumption

/-! ### Questions -/

/-- The system does not follow the path, because it or a name in it is too long. -/
def Refuses (w : Workspace) (p : Path) : Prop := w.entry p = .error .nameTooLong

instance : Decidable (w.Refuses p) := inferInstanceAs (Decidable (w.entry p = .error .nameTooLong))

/-- Whether a file or a folder stands where a path leads. -/
def stands (w : Workspace) (p : Path) : Bool :=
  match w.entry p with
  | .ok _ => true
  | .error _ => false

theorem stands_eq_true : w.stands p = true ↔ ∃ e, w.entry p = .ok e := by
  rw [stands]
  cases w.entry p with
  | ok e => simp
  | error fault => simp

theorem entry_eq_ok {e : Entry} :
    w.entry p = .ok e ↔ ∃ place, w.locate p = .ok place ∧ w.entryAt? place = some e := by
  rw [entry, bind_eq_ok]
  refine exists_congr fun place => and_congr_right fun _ => ?_
  cases w.entryAt? place with
  | none => simp
  | some e' => simp

theorem refuses_iff : w.Refuses p ↔ w.locate p = .error .nameTooLong := by
  rw [Refuses, entry, bind_eq_error, or_iff_left]
  rintro ⟨place, _, h⟩
  cases he : w.entryAt? place with
  | none => simp [he] at h
  | some e => simp [he] at h

theorem entry?_eq_error {f : Failure} :
    w.entry? p = .error f ↔ w.Refuses p ∧ f = .path .nameTooLong p.text := by
  unfold entry? Refuses
  cases w.entry p with
  | ok e => simp
  | error fault => cases fault <;> simp [eq_comm]

theorem entry?_eq_ok {e : Option Entry} :
    w.entry? p = .ok e ↔ ¬ w.Refuses p ∧ e = (w.entry p).toOption := by
  unfold entry? Refuses
  cases w.entry p with
  | ok e' => simp [Except.toOption, eq_comm]
  | error fault => cases fault <;> simp [Except.toOption, eq_comm]

theorem exists?_eq_error {f : Failure} :
    w.exists? p = .error f ↔ w.Refuses p ∧ f = .path .nameTooLong p.text := by
  rw [exists?, bind_eq_error, entry?_eq_error]
  simp

theorem exists?_eq_ok {b : Bool} : w.exists? p = .ok b ↔ ¬ w.Refuses p ∧ b = w.stands p := by
  simp only [exists?, bind_eq_ok, entry?_eq_ok, stands, pure_eq_ok, Except.ok.injEq]
  cases w.entry p with
  | ok e => simp [Except.toOption, eq_comm]
  | error fault => simp [Except.toOption, eq_comm]

theorem isFolder_eq_error {f : Failure} :
    w.isFolder p = .error f ↔ w.Refuses p ∧ f = .path .nameTooLong p.text := by
  rw [isFolder, bind_eq_error, entry?_eq_error]
  simp

theorem isFolder_eq_ok {b : Bool} :
    w.isFolder p = .ok b ↔ ¬ w.Refuses p ∧ b = decide (w.entry p = .ok .folder) := by
  simp only [isFolder, bind_eq_ok, entry?_eq_ok, pure_eq_ok, Except.ok.injEq]
  cases w.entry p with
  | ok e => cases e <;> simp [Except.toOption, eq_comm]
  | error fault => simp [Except.toOption, eq_comm]

/-- Whether a file stands where a path leads. -/
def standsFile (w : Workspace) (p : Path) : Bool :=
  match w.entry p with
  | .ok (.file _) => true
  | _ => false

theorem standsFile_eq_true : w.standsFile p = true ↔ ∃ bytes, w.entry p = .ok (.file bytes) := by
  rw [standsFile]
  cases w.entry p with
  | ok e => cases e <;> simp
  | error fault => simp

theorem isFile_eq_error {f : Failure} :
    w.isFile p = .error f ↔ w.Refuses p ∧ f = .path .nameTooLong p.text := by
  rw [isFile, bind_eq_error, entry?_eq_error, or_iff_left]
  rintro ⟨e, _, h⟩
  split at h <;> cases h

theorem isFile_eq_ok {b : Bool} : w.isFile p = .ok b ↔ ¬ w.Refuses p ∧ b = w.standsFile p := by
  simp only [isFile, bind_eq_ok, entry?_eq_ok, standsFile]
  cases w.entry p with
  | ok e => cases e <;> simp [Except.toOption, eq_comm]
  | error fault => simp [Except.toOption, eq_comm]

theorem isName_of_refuses (h : w.Refuses p) : p.text.IsName := by
  rw [refuses_iff, locate] at h
  rw [← Name.fault?_eq_none]
  split at h
  · cases h
  · assumption

/-- What is found has a path of names. -/
theorem isNamed_of_stands (h : w.stands p = true) : p.IsNamed := by
  obtain ⟨e, he⟩ := stands_eq_true.mp h
  obtain ⟨place, hplace, _⟩ := entry_eq_ok.mp he
  exact (Path.isName_text_iff.mp (isName_of_locate hplace)).2

theorem names_of_locate {base : Location} (h : w.locate p = .ok base) :
    w.names p = w.namesIn base := by
  rw [names, h]

/-- What stands in a folder is listed under a text that leads back to it. -/
theorem isName_of_mem_names {name : Text} (h : name ∈ w.names p) : name.IsName := by
  rw [names] at h
  split at h
  · exact absurd h List.not_mem_nil
  · obtain ⟨x, _, hx⟩ := List.mem_filterMap.mp h
    split at hx
    · obtain ⟨n, _, rfl⟩ := Option.map_eq_some_iff.mp hx
      exact n.isName_text
    · cases hx

theorem fileName?_eq_error {name : Text} {f : Failure} :
    w.fileName? p name = .error f ↔
      w.Refuses (p.child name) ∧ f = .path .nameTooLong (p.child name).text := by
  rw [fileName?, bind_eq_error, isFile_eq_error]
  simp

theorem fileName?_eq_ok {name : Text} {file : Option Text} :
    w.fileName? p name = .ok file ↔ ¬ w.Refuses (p.child name) ∧
      Option.guard (fun name => w.standsFile (p.child name)) name = file := by
  simp only [fileName?, bind_eq_ok, isFile_eq_ok, pure_eq_ok, Except.ok.injEq, Option.guard]
  constructor
  · rintro ⟨_, ⟨hr, rfl⟩, hfile⟩
    exact ⟨hr, hfile⟩
  · rintro ⟨hr, hfile⟩
    exact ⟨_, ⟨hr, rfl⟩, hfile⟩

/-- The first path that is too long decides. -/
theorem filesIn_eq_error {f : Failure} :
    w.filesIn p = .error f ↔ ∃ name, IsFirst (fun n => w.Refuses (p.child n)) (w.names p) name ∧
      f = .path .nameTooLong (p.child name).text := by
  have hfails : ∀ name, Fails (w.fileName? p name) ↔ w.Refuses (p.child name) := fun name => by
    simp [Fails, fileName?_eq_error]
  rw [filesIn, bind_eq_error, or_iff_left (by simp), mapM_eq_error]
  simp only [hfails, fileName?_eq_error]
  refine exists_congr fun name => and_congr_right fun hname => ?_
  exact and_iff_right hname.holds

theorem filesIn_eq_ok {files : List Text} :
    w.filesIn p = .ok files ↔ (∀ name ∈ w.names p, ¬ w.Refuses (p.child name)) ∧
      files = (w.names p).filter fun name => w.standsFile (p.child name) := by
  rw [← List.filterMap_eq_filter, ← mapM_filterMap_eq_ok fun name file => fileName?_eq_ok]
  simp only [filesIn, bind_eq_ok, pure_eq_ok, Except.ok.injEq]

/-! ### Showing paths -/

theorem isName_advance {anchored : Bool} {passed : List Text} {part : Text}
    (hpassed : ∀ t ∈ passed, t.IsName) (hpart : part.IsName) :
    ∀ t ∈ Path.advance anchored passed part, t.IsName := by
  have habove : Path.above.IsName := by decide
  rw [Path.advance]
  split_ifs
  · exact List.forall_mem_append.mpr ⟨hpassed, List.forall_mem_singleton.mpr hpart⟩
  · exact List.forall_mem_append.mpr ⟨hpassed, List.forall_mem_singleton.mpr habove⟩
  · exact fun t ht => hpassed t (List.dropLast_subset passed ht)

/-- A path fails on its way only at a part that is no name. -/
theorem passFault?_eq_none {anchored : Bool} {passed parts : List Text}
    (hpassed : ∀ t ∈ passed, t.IsName) :
    passFault? anchored passed parts = none ↔ ∀ part ∈ parts, part.IsName := by
  induction parts generalizing passed with
  | nil => simp [passFault?]
  | cons part parts ih =>
    have hanchor : (if anchored = true then ("/" : Text) else []).IsName := by
      cases anchored <;> decide
    have hfirst : Name.fault?
        (Path.mk (if anchored then "/" else []) (passed ++ [part])).text = none ↔ part.IsName := by
      rw [Name.fault?_eq_none, Path.isName_text_iff, Path.IsNamed, List.forall_mem_append,
        List.forall_mem_singleton]
      exact ⟨fun h => h.2.2, fun h => ⟨hanchor, hpassed, h⟩⟩
    rw [passFault?, List.forall_mem_cons, ← hfirst]
    split
    · next fault hfault => simp [hfault]
    · next hnone =>
      rw [ih (isName_advance hpassed (hfirst.mp hnone)), hnone]
      exact (and_iff_right rfl).symm

/-- The path from the top in print, if all of it stands for bytes. -/
def shownPath (w : Workspace) (p : Path) : Text := (p.resolve (w.current.map Name.text)).text

theorem shown_eq_ok {t : Text} : w.shown p = .ok t ↔ p.IsNamed ∧ t = w.shownPath p := by
  have hnone : passFault? (p.anchor ≠ []) [] p.parts = none ↔ ∀ part ∈ p.parts, part.IsName :=
    passFault?_eq_none fun t ht => absurd ht List.not_mem_nil
  rw [Path.IsNamed, ← hnone, shown, shownPath]
  cases passFault? (p.anchor ≠ []) [] p.parts with
  | some fault => simp
  | none => simp [eq_comm]

theorem fails_shown_iff : Fails (w.shown p) ↔ ¬ p.IsNamed := by
  rw [← not_iff_not, not_fails, not_not]
  simp only [shown_eq_ok]
  exact ⟨fun ⟨_, h, _⟩ => h, fun h => ⟨_, h, rfl⟩⟩

theorem shown_fault {f : Failure} (h : w.shown p = .error f) :
    ∃ fault, f = .path (.unnameable fault) p.text := by
  rw [shown] at h
  split at h
  · exact ⟨_, (Except.error.inj h).symm⟩
  · cases h

/-! ### Reading -/

theorem read_eq_ok {bytes : List UInt8} :
    w.read p = .ok bytes ↔ w.entry p = .ok (.file bytes) := by
  rw [read]
  cases w.entry p with
  | ok e => cases e <;> simp
  | error fault => simp

theorem read_eq_error {f : Failure} :
    w.read p = .error f ↔ (w.entry p = .ok .folder ∧ f = .path .isFolder p.text) ∨
      ∃ fault, w.entry p = .error fault ∧ f = .path fault p.text := by
  rw [read]
  cases w.entry p with
  | ok e => cases e <;> simp [eq_comm]
  | error fault => simp [eq_comm]

end Workspace

end SvgDeck
