/-
Changes to a workspace.

Putting something at a place changes what stands there and nothing else (`entryAt?_put`).
A text that is written replaces one file (`writeText_of_isUnicode`), leaves it empty
(`writeText_of_not_isUnicode`) or changes nothing at all (`writeText_of_not_canWrite`).
A path still leads where it led as long as no folder is gone (`locate_of_folders`), so one
file does not stand in the way of the next (`CanWrite.of_replaced`).
-/
import SvgDeck.Deck.Build
import SvgDeck.Proofs.Path
import SvgDeck.Proofs.Unicode

namespace SvgDeck

namespace Workspace

variable {w w' : Workspace} {p : Path} {place q : Location} {e : Entry}

/-! ### Comparing workspaces -/

/-- Everything stands in `w'` as it does in `w`. -/
def Agree (w w' : Workspace) : Prop :=
  w'.current = w.current ∧ ∀ q, w'.entryAt? q = w.entryAt? q

/-- `w'` has `e` at one place, and everything else stands as it does in `w`. -/
structure Replaced (w w' : Workspace) (place : Location) (e : Entry) : Prop where
  current : w'.current = w.current
  here : w'.entryAt? place = some e
  elsewhere : ∀ q, q ≠ place → w'.entryAt? q = w.entryAt? q

theorem Agree.refl (w : Workspace) : w.Agree w := ⟨rfl, fun _ => rfl⟩

/-- A replacement changes nothing if it puts what stood there before. -/
theorem Replaced.agree_iff (h : w.Replaced w' place e) :
    w.Agree w' ↔ w.entryAt? place = some e := by
  constructor
  · rintro ⟨_, hsame⟩
    rw [← hsame place, h.here]
  · intro he
    refine ⟨h.current, fun q => ?_⟩
    by_cases hq : q = place
    · rw [hq, h.here, he]
    · exact h.elsewhere q hq

/-! ### Putting -/

theorem lookup_map_put (entries : List (Location × Entry)) (place q : Location) (e : Entry) :
    (entries.map fun x => if x.1 = place then (place, e) else x).lookup q =
      if q = place then (entries.lookup q).map fun _ => e else entries.lookup q := by
  induction entries with
  | nil => simp
  | cons x entries ih =>
    obtain ⟨at_, e'⟩ := x
    rw [List.map_cons, List.lookup_cons, List.lookup_cons, ih]
    by_cases hat : at_ = place
    · subst hat
      by_cases hq : q = at_
      · simp [hq]
      · simp [hq, beq_eq_false_iff_ne.mpr hq]
    · by_cases hq : q = at_
      · subst hq
        simp [hat]
      · simp [hat, beq_eq_false_iff_ne.mpr hq]

/-- Below the top a place holds what was put there; all other places hold what they held. -/
theorem entryAt?_put (hplace : place ≠ []) :
    (w.put place e).entryAt? q = if q = place then some e else w.entryAt? q := by
  by_cases hq : q = []
  · subst hq
    rw [if_neg (Ne.symm hplace)]
    rfl
  · rw [entryAt?, if_neg hq, entryAt?, if_neg hq, put]
    -- A place that is known is changed where it stands; a new one comes last.
    cases hfound : w.entries.lookup place with
    | none =>
      simp only [Option.isSome_none, Bool.false_eq_true, if_false, List.lookup_append]
      by_cases hqp : q = place
      · simp [hqp, hfound]
      · simp [hqp, List.lookup_cons, beq_eq_false_iff_ne.mpr hqp]
    | some e' =>
      simp only [Option.isSome_some, if_true, lookup_map_put]
      by_cases hqp : q = place
      · simp [hqp, hfound]
      · simp [hqp]

theorem replaced_put (hplace : place ≠ []) : w.Replaced (w.put place e) place e where
  current := rfl
  here := by rw [entryAt?_put hplace, if_pos rfl]
  elsewhere q hq := by rw [entryAt?_put hplace, if_neg hq]

/-- A place that something was put at is listed with nothing else. -/
theorem eq_of_mem_put {x : Location × Entry} (h : x ∈ (w.put place e).entries)
    (hx : x.1 = place) : x = (place, e) := by
  rw [put] at h
  cases hfound : w.entries.lookup place with
  | none =>
    simp only [hfound, Option.isSome_none, Bool.false_eq_true, if_false] at h
    rcases List.mem_append.mp h with h | h
    · have hne := List.lookup_eq_none_iff.mp hfound x h
      simp [hx] at hne
    · exact List.mem_singleton.mp h
  | some e' =>
    simp only [hfound, Option.isSome_some, if_true] at h
    obtain ⟨y, _, rfl⟩ := List.mem_map.mp h
    by_cases hy : y.1 = place
    · rw [if_pos hy]
    · rw [if_neg hy] at hx
      exact absurd hx hy

/-- Putting the same thing twice is putting it once. -/
theorem put_put (w : Workspace) (place : Location) (e : Entry) :
    (w.put place e).put place e = w.put place e := by
  have hmem : (place, e) ∈ (w.put place e).entries := by
    rw [put]
    cases hfound : w.entries.lookup place with
    | none => simp
    | some e' =>
      obtain ⟨front, back, heq, _⟩ := List.lookup_eq_some_iff.mp hfound
      simp [heq]
  -- The place is known by now, and what is listed for it is what is put there.
  have hknown : ((w.put place e).entries.lookup place).isSome = true := by
    refine Option.isSome_iff_ne_none.mpr fun hnone => ?_
    simpa using List.lookup_eq_none_iff.mp hnone _ hmem
  have hsame : (w.put place e).entries.map (fun x => if x.1 = place then (place, e) else x) =
      (w.put place e).entries := by
    refine (List.map_congr_left fun x hx => ?_).trans (List.map_id _)
    by_cases hplace : x.1 = place
    · rw [if_pos hplace, eq_of_mem_put hx hplace, id]
    · rw [if_neg hplace, id]
  generalize w.put place e = w' at hknown hsame
  rw [put, if_pos hknown, hsame]

/-! ### Following paths -/

theorem walk_append (place : Location) (parts : List Text) (name : Text) :
    w.walk place (parts ++ [name]) = w.walk place parts >>= fun base => w.walk base [name] := by
  induction parts generalizing place with
  | nil => rfl
  | cons part parts ih =>
    rw [List.cons_append, walk, walk]
    cases w.entryAt? place with
    | none => rfl
    | some e =>
      cases e with
      | file bytes => rfl
      | folder =>
        by_cases hp : nameLimit < byteLength part
        · simp [hp]
        · simp [hp, ih]

/-- A path leads to the same place where all the folders of `w` are still there. -/
theorem walk_of_folders (h : ∀ q, w.entryAt? q = some .folder → w'.entryAt? q = some .folder)
    {parts : List Text} (hw : w.walk q parts = .ok place) : w'.walk q parts = .ok place := by
  induction parts generalizing q with
  | nil => exact hw
  | cons part parts ih =>
    rw [walk] at hw ⊢
    cases hq : w.entryAt? q with
    | none =>
      rw [hq] at hw
      cases hw
    | some e =>
      cases e with
      | file bytes =>
        rw [hq] at hw
        cases hw
      | folder =>
        -- The folder is still there, and so are those behind it.
        simp only [hq] at hw
        simp only [h q hq]
        by_cases hp : nameLimit < byteLength part
        · rw [if_pos hp] at hw
          cases hw
        · rw [if_neg hp] at hw ⊢
          exact ih hw

theorem locate_of_folders (hc : w'.current = w.current)
    (h : ∀ q, w.entryAt? q = some .folder → w'.entryAt? q = some .folder)
    (hp : w.locate p = .ok place) : w'.locate p = .ok place := by
  have hname := isName_of_locate hp
  rw [locate_of_isName hname] at hp ⊢
  by_cases hlong : pathLimit < byteLength p.text
  · rw [if_pos hlong] at hp
    cases hp
  · rw [if_neg hlong] at hp ⊢
    rw [hc]
    exact walk_of_folders h hp

section Child

variable {folder : Path} {base : Location} {name : Text}

/-- A name in a folder that is found has a path of bytes. -/
theorem isName_text_child (hl : w.locate folder = .ok base) (hname : name.IsName) :
    (folder.child name).text.IsName := by
  obtain ⟨hanchor, hparts⟩ := Path.isName_text_iff.mp (isName_of_locate hl)
  exact Path.isName_text_iff.mpr ⟨hanchor, Path.isNamed_child_iff.mpr ⟨hparts, hname⟩⟩

variable (hl : w.locate folder = .ok base) (hf : w.entryAt? base = some .folder)
  (hname : name.IsName)

include hl hf hname

/-- Behind the path of a folder there is one step more to take, unless the path or the name is too
long. -/
theorem locate_step :
    w.locate (folder.child name) =
      if pathLimit < byteLength (folder.child name).text ∨ nameLimit < byteLength name then
        .error .nameTooLong
      else .ok (if name = Path.above then base.dropLast else base ++ [Name.ofText name]) := by
  rw [locate_of_isName (isName_text_child hl hname)]
  by_cases hlong : pathLimit < byteLength (folder.child name).text
  · rw [if_pos hlong, if_pos (Or.inl hlong)]
  · have hwalk : w.walk (if folder.anchor = [] then w.current else []) folder.parts = .ok base := by
      rw [locate_of_isName (isName_of_locate hl)] at hl
      by_cases hp : pathLimit < byteLength folder.text
      · rw [if_pos hp] at hl
        cases hl
      · rwa [if_neg hp] at hl
    have hanchor : (folder.child name).anchor = folder.anchor := rfl
    have hparts : (folder.child name).parts = folder.parts ++ [name] := rfl
    -- The walk goes through the folder and takes one step more.
    rw [if_neg hlong, hanchor, hparts, walk_append, hwalk, ok_bind, walk, hf]
    by_cases hlimit : nameLimit < byteLength name
    · simp only [hlimit, if_true, or_true]
    · simp only [hlimit, hlong, if_false, or_self, walk]

/-- In a folder only the lengths count for whether a name can be looked up. -/
theorem refuses_child_iff : w.Refuses (folder.child name) ↔
    pathLimit < byteLength (folder.child name).text ∨ nameLimit < byteLength name := by
  rw [refuses_iff, locate_step hl hf hname]
  split
  · next hlong => exact iff_of_true rfl hlong
  · next hshort => exact iff_of_false (by simp) hshort

theorem locate_child_of_not_refuses (hn : name ≠ Path.above)
    (hr : ¬ w.Refuses (folder.child name)) :
    w.locate (folder.child name) = .ok (base ++ [Name.ofText name]) := by
  rw [refuses_child_iff hl hf hname] at hr
  rw [locate_step hl hf hname, if_neg hr, if_neg hn]

end Child

/-! ### Writing -/

/-- A file can be created or replaced at the place that a path leads to. -/
structure CanWrite (w : Workspace) (p : Path) (place : Location) : Prop where
  leads : w.locate p = .ok place
  parent : w.entryAt? place.dropLast = some .folder
  free : w.entryAt? place ≠ some .folder

theorem write_of_canWrite (h : w.CanWrite p place) (bytes : List UInt8) :
    w.write p bytes = .ok (w.put place (.file bytes)) := by
  rw [write, h.leads]
  simp only [h.parent]
  cases hhere : w.entryAt? place with
  | none => rfl
  | some e =>
    cases e with
    | file b => rfl
    | folder => exact absurd hhere h.free

/-- What fails writes nothing, and nothing else fails. -/
theorem fails_write_iff {bytes : List UInt8} :
    Fails (w.write p bytes) ↔ ¬ ∃ place, w.CanWrite p place := by
  constructor
  · rintro ⟨f, hf⟩ ⟨place, h⟩
    rw [write_of_canWrite h] at hf
    cases hf
  · intro h
    rw [write]
    cases hl : w.locate p with
    | error fault => simp
    | ok place =>
      simp only
      cases hparent : w.entryAt? place.dropLast with
      | none => simp
      | some e =>
        cases e with
        | file b => simp
        | folder =>
          cases hhere : w.entryAt? place with
          | none => exact absurd ⟨place, hl, hparent, by simp [hhere]⟩ h
          | some e =>
            cases e with
            | file b => exact absurd ⟨place, hl, hparent, by simp [hhere]⟩ h
            | folder => simp

/-- In a folder a file can be written under any name that is neither refused nor that of another
folder. -/
theorem exists_canWrite_child_iff {folder : Path} {base : Location} {name : Text}
    (hl : w.locate folder = .ok base) (hf : w.entryAt? base = some .folder)
    (hname : name.IsName) (hn : name ≠ Path.above) :
    (∃ place, w.CanWrite (folder.child name) place) ↔
      ¬ w.Refuses (folder.child name) ∧ w.entry (folder.child name) ≠ .ok .folder := by
  by_cases hr : w.Refuses (folder.child name)
  · refine iff_of_false ?_ fun h => h.1 hr
    rintro ⟨place, hw⟩
    rw [refuses_iff, hw.leads] at hr
    cases hr
  · have hleads := locate_child_of_not_refuses hl hf hname hn hr
    have hentry : w.entry (folder.child name) = .ok .folder ↔
        w.entryAt? (base ++ [Name.ofText name]) = some .folder := by
      rw [entry_eq_ok, hleads]
      simp
    rw [Ne, hentry]
    constructor
    · rintro ⟨place, hw⟩
      obtain rfl := Except.ok.inj (hw.leads.symm.trans hleads)
      exact ⟨hr, hw.free⟩
    · rintro ⟨_, hfree⟩
      exact ⟨_, hleads, by rw [List.dropLast_concat, hf], hfree⟩

theorem CanWrite.ne_nil (h : w.CanWrite p place) : place ≠ [] := by
  rintro rfl
  exact h.free rfl

/-- A new file takes no folder away. -/
theorem Replaced.folders {bytes : List UInt8} (hr : w.Replaced w' place (.file bytes))
    (hfree : w.entryAt? place ≠ some .folder) :
    ∀ q, w.entryAt? q = some .folder → w'.entryAt? q = some .folder := by
  intro q hq
  have hne : q ≠ place := by
    rintro rfl
    exact hfree hq
  rw [hr.elsewhere q hne, hq]

/-- What could be written before a file was written can be written after it. -/
theorem CanWrite.of_replaced {p' : Path} {place' : Location} (h : w.CanWrite p place)
    {bytes : List UInt8} (hr : w.Replaced w' place (.file bytes)) (h' : w.CanWrite p' place') :
    w'.CanWrite p' place' where
  leads := locate_of_folders hr.current (hr.folders h.free) h'.leads
  parent := hr.folders h.free _ h'.parent
  free := by
    -- Where the first file was written now stands a file.
    by_cases hp : place' = place
    · rw [hp, hr.here]
      simp
    · rw [hr.elsewhere _ hp]
      exact h'.free

end Workspace

/-! ### Writing texts -/

variable {w : Workspace} {p : Path} {place : Location} {t : Text}

theorem writeText_of_not_canWrite (h : ¬ ∃ place, w.CanWrite p place) :
    ∃ f, w.write p [] = .error f ∧ writeText w p t = (w, .error f) := by
  obtain ⟨f, hf⟩ := Workspace.fails_write_iff.mpr h
  exact ⟨f, hf, by rw [writeText, hf]⟩

/-- The file is emptied before the text turns out to have no UTF-8 form. -/
theorem writeText_of_not_isUnicode (h : w.CanWrite p place) (ht : ¬ t.IsUnicode) :
    ∃ u, (writeText w p t).2 = .error (.unencodable u) ∧
      w.Replaced (writeText w p t).1 place (.file []) := by
  obtain ⟨u, hu⟩ := Utf8.fails_encode.mpr ht
  have hw : writeText w p t = (w.put place (.file []), .error (.unencodable u)) := by
    rw [writeText, Workspace.write_of_canWrite h]
    simp only [hu]
  rw [hw]
  exact ⟨u, rfl, Workspace.replaced_put h.ne_nil⟩

theorem writeText_eq_put (h : w.CanWrite p place) (ht : t.IsUnicode) :
    writeText w p t = (w.put place (.file (t.flatMap Utf8.encodeCodePoint)), .ok ()) := by
  rw [writeText, Workspace.write_of_canWrite h]
  simp only [Utf8.encode_eq_ok.mpr ⟨ht, rfl⟩, Workspace.write_of_canWrite h]

theorem writeText_of_isUnicode (h : w.CanWrite p place) (ht : t.IsUnicode) :
    (writeText w p t).2 = .ok () ∧
      w.Replaced (writeText w p t).1 place (.file (t.flatMap Utf8.encodeCodePoint)) := by
  rw [writeText_eq_put h ht]
  exact ⟨rfl, Workspace.replaced_put h.ne_nil⟩

end SvgDeck
