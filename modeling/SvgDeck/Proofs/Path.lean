/-
Paths of the files that a slideshow is made of.

The id of a valid flow holds no slash, so its picture is an entry of the folder of the
pictures itself (`assetPath_eq_child`), and different ids have different pictures, also
when the paths are shown from the top (`shownAsset_injective`).  The name of an entry ends
in its suffix, which starts at the last point (`suffixStart_append`), and a path in print
reads back as itself (`ofText_text`).
-/
import SvgDeck.Proofs.Asset
import SvgDeck.Schema.Document

namespace SvgDeck

namespace Path

/-! ### Reading and showing paths -/

/-- A text without slashes is the name of an entry, unless it is empty or a point. -/
theorem ofText_eq_part {t : Text} (hslash : CodePoint.ofChar '/' ∉ t) (hne : t ≠ [])
    (hpoint : t ≠ Text.ofString ".") : ofText t = ⟨[], [t]⟩ := by
  have hanchor : anchorOf t = [] := by
    cases t with
    | nil => exact absurd rfl hne
    | cons c t =>
      have hc : c ≠ CodePoint.ofChar '/' := fun h => hslash (h ▸ List.mem_cons_self)
      rw [anchorOf, List.takeWhile_cons_of_neg (by simpa using hc)]
      rfl
  rw [ofText, hanchor, List.splitOn_eq_singleton hslash]
  simp [hne, hpoint]

/-- The last part stands at the end of a path in print. -/
theorem exists_text_eq (anchor : Text) (parts : List Text) :
    ∃ front, ∀ name, (⟨anchor, parts ++ [name]⟩ : Path).text = front ++ name := by
  -- The same front for all names, so that it can be cancelled.
  have hjoin : ∃ front : Text, ∀ name, Text.join "/" (parts ++ [name]) = front ++ name := by
    induction parts with
    | nil => exact ⟨[], fun name => by simp [Text.join]⟩
    | cons part parts ih =>
      obtain ⟨front, hfront⟩ := ih
      refine ⟨part ++ ("/" : Text) ++ front, fun name => ?_⟩
      have hfront := hfront name
      rw [Text.join] at hfront ⊢
      rw [List.cons_append, List.intercalate_cons_of_ne_nil (by simp), hfront]
      simp
  obtain ⟨front, hfront⟩ := hjoin
  refine ⟨anchor ++ front, fun name => ?_⟩
  rw [text, if_neg (by simp), hfront, List.append_assoc]

theorem follow_append_singleton (folders parts : List Text) {part : Text} (h : part ≠ above) :
    follow folders (parts ++ [part]) = follow folders parts ++ [part] := by
  rw [follow, List.foldl_append, List.foldl_cons, List.foldl_nil, if_neg h, follow]

/-- An entry that is not the folder above stays the last part of the path from the top. -/
theorem resolve_child (current : List Text) (p : Path) {name : Text} (h : name ≠ above) :
    (p.child name).resolve current = (p.resolve current).child name := by
  rw [resolve, resolve, child, child, follow_append_singleton _ _ h]

/-! ### Reading paths back -/

/-- No piece holds the character at which a text is split. -/
theorem not_mem_of_mem_splitOn {c : CodePoint} {t piece : Text} (h : piece ∈ t.splitOn c) :
    c ∉ piece := by
  induction t generalizing piece with
  | nil =>
    rw [List.splitOn_nil, List.mem_singleton] at h
    rw [h]
    exact List.not_mem_nil
  | cons b t ih =>
    obtain ⟨first, more, hpieces⟩ := List.exists_cons_of_ne_nil (List.splitOn_ne_nil c t)
    rw [List.splitOn_cons_eq_if_modifyHead, hpieces] at h
    rw [hpieces] at ih
    by_cases hb : b = c
    · rw [if_pos (by simpa using hb), List.mem_cons] at h
      rcases h with rfl | h
      · exact List.not_mem_nil
      · exact ih h
    · rw [if_neg (by simpa using hb), List.modifyHead_cons, List.mem_cons] at h
      rcases h with rfl | h
      · rw [List.mem_cons, not_or]
        exact ⟨Ne.symm hb, ih List.mem_cons_self⟩
      · exact ih (List.mem_cons_of_mem _ h)

/-- What can stand between the slashes of a path. -/
def IsPart (part : Text) : Prop :=
  part ≠ [] ∧ part ≠ Text.ofString "." ∧ CodePoint.ofChar '/' ∉ part

/-- The path is as reading a text gives it. -/
structure IsRead (p : Path) : Prop where
  anchor : p.anchor ∈ [[], Text.ofString "/", Text.ofString "//"]
  parts : ∀ part ∈ p.parts, IsPart part

theorem isRead_ofText (t : Text) : (ofText t).IsRead := by
  constructor
  case anchor =>
    rw [ofText, anchorOf]
    split <;> simp
  case parts =>
    intro part hpart
    obtain ⟨hpiece, hkept⟩ := List.mem_filter.mp hpart
    obtain ⟨hne, hpoint⟩ := of_decide_eq_true hkept
    exact ⟨hne, hpoint, not_mem_of_mem_splitOn hpiece⟩

theorem IsRead.child {p : Path} {name : Text} (h : p.IsRead) (hname : IsPart name) :
    (p.child name).IsRead := by
  refine ⟨h.anchor, fun part hpart => ?_⟩
  rcases List.mem_append.mp hpart with hpart | hpart
  · exact h.parts part hpart
  · rw [List.mem_singleton.mp hpart]
    exact hname

/-- The parts of a path in print start with no slash. -/
theorem takeWhile_join {parts : List Text} (h : ∀ part ∈ parts, IsPart part) :
    (Text.join "/" parts).takeWhile (· = CodePoint.ofChar '/') = [] := by
  cases parts with
  | nil => rfl
  | cons part parts =>
    obtain ⟨hne, _, hslash⟩ := h part List.mem_cons_self
    obtain ⟨c, rest, rfl⟩ := List.exists_cons_of_ne_nil hne
    have hc : c ≠ CodePoint.ofChar '/' := fun hc => hslash (hc ▸ List.mem_cons_self)
    have hjoin : ∃ more, Text.join "/" ((c :: rest) :: parts) = c :: more := by
      cases parts with
      | nil => exact ⟨rest, by simp [Text.join]⟩
      | cons part parts => exact ⟨_, by rw [Text.join, List.intercalate_cons_cons]; rfl⟩
    obtain ⟨more, hmore⟩ := hjoin
    rw [hmore, List.takeWhile_cons_of_neg (by simpa using hc)]

/-- The parts of a path in print are split where they were joined. -/
theorem splitOn_join {parts : List Text} (h : ∀ part ∈ parts, IsPart part) :
    ((Text.join "/" parts).splitOn (CodePoint.ofChar '/')).filter
      (fun p => p ≠ [] ∧ p ≠ Text.ofString ".") = parts := by
  cases parts with
  | nil => decide
  | cons part parts =>
    have hsplit : (Text.join "/" (part :: parts)).splitOn (CodePoint.ofChar '/') = part :: parts :=
      List.splitOn_intercalate _ (fun p hp => (h p hp).2.2) (by simp)
    rw [hsplit, List.filter_eq_self]
    exact fun p hp => decide_eq_true ⟨(h p hp).1, (h p hp).2.1⟩

/-- One more slash in front of a path adds no part. -/
theorem filter_splitOn_slash (t : Text) :
    ((CodePoint.ofChar '/' :: t).splitOn (CodePoint.ofChar '/')).filter
      (fun p => p ≠ [] ∧ p ≠ Text.ofString ".") =
    (t.splitOn (CodePoint.ofChar '/')).filter (fun p => p ≠ [] ∧ p ≠ Text.ofString ".") := by
  rw [List.splitOn_cons_eq_if_modifyHead, if_pos (by simp), List.filter_cons_of_neg (by simp)]

/-- A path in print reads back. -/
theorem ofText_text {p : Path} (h : p.IsRead) : ofText p.text = p := by
  obtain ⟨anchor, parts⟩ := p
  have htake : (Text.join "/" parts).takeWhile (· = CodePoint.ofChar '/') = [] :=
    takeWhile_join h.parts
  have hsplit : ((Text.join "/" parts).splitOn (CodePoint.ofChar '/')).filter
      (fun p => p ≠ [] ∧ p ≠ Text.ofString ".") = parts := splitOn_join h.parts
  by_cases hnone : anchor = [] ∧ parts = []
  · obtain ⟨rfl, rfl⟩ := hnone
    decide
  · rw [text, if_neg hnone]
    generalize Text.join "/" parts = front at htake hsplit ⊢
    -- The slashes in front are those of the anchor, and they add no parts.
    have hanchor := h.anchor
    simp only [List.mem_cons, List.not_mem_nil, or_false] at hanchor
    rcases hanchor with rfl | rfl | rfl
    · rw [List.nil_append, ofText, anchorOf, htake, hsplit]
      rfl
    · have hone : Text.ofString "/" ++ front = CodePoint.ofChar '/' :: front := rfl
      rw [hone, ofText, anchorOf, filter_splitOn_slash, hsplit,
        List.takeWhile_cons_of_pos (by simp), htake]
      rfl
    · have htwo : Text.ofString "//" ++ front =
          CodePoint.ofChar '/' :: CodePoint.ofChar '/' :: front := rfl
      rw [htwo, ofText, anchorOf, filter_splitOn_slash, filter_splitOn_slash, hsplit,
        List.takeWhile_cons_of_pos (by simp), List.takeWhile_cons_of_pos (by simp), htake]
      rfl

/-! ### Entries of a folder -/

theorem parent_child (folder : Path) (name : Text) : (folder.child name).parent = folder := by
  simp [child, parent]

theorem name_child (folder : Path) (name : Text) : (folder.child name).name = name := by
  simp [child, Path.name]

theorem stem_child (folder : Path) (name : Text) :
    (folder.child name).stem = name.take (suffixStart name) := by
  rw [stem, name_child]

theorem suffix_child (folder : Path) (name : Text) :
    (folder.child name).suffix = name.drop (suffixStart name) := by
  rw [suffix, name_child]

theorem withSuffix?_child (folder : Path) {name : Text} (h : name ≠ []) (suffix : Text) :
    (folder.child name).withSuffix? suffix =
      some (folder.child ((folder.child name).stem ++ suffix)) := by
  rw [withSuffix?, name_child, if_neg h, parent_child]

/-- The suffix starts at the last point. -/
theorem suffixStart_append {t suffix : Text} (ht : t ≠ []) (hs : suffix ≠ [])
    (hpoint : CodePoint.ofChar '.' ∉ suffix) :
    suffixStart (t ++ CodePoint.ofChar '.' :: suffix) = t.length := by
  have htail : ((t ++ CodePoint.ofChar '.' :: suffix).reverse.takeWhile
      (· ≠ CodePoint.ofChar '.')).length = suffix.length := by
    rw [List.reverse_append, List.reverse_cons, List.append_assoc, List.takeWhile_append_of_pos]
    · simp
    · intro c hc
      have hc := List.mem_reverse.mp hc
      simp only [ne_eq, decide_eq_true_eq]
      rintro rfl
      exact hpoint hc
  have hlt : t.length ≠ 0 := by simpa using ht
  have hls : suffix.length ≠ 0 := by simpa using hs
  rw [suffixStart, htail]
  simp only [List.length_append, List.length_cons]
  rw [if_neg (by omega)]
  omega

end Path

/-! ### Pictures of valid ids -/

/-- The name of the file of a picture. -/
def assetName (root : Text) : Text := root ++ ".svg"

theorem not_mem_of_isFlowId {root : Text} (h : isFlowId root = true) {c : CodePoint}
    (hc : isFlowIdPart c = false) : c ∉ root := by
  intro hm
  rw [isFlowId, Bool.and_eq_true, List.all_eq_true] at h
  rw [h.2 c hm] at hc
  cases hc

theorem assetName_injective {root root' : Text} (h : assetName root = assetName root') :
    root = root' := List.append_cancel_right h

theorem slash_not_mem_assetName {root : Text} (h : isFlowId root = true) :
    CodePoint.ofChar '/' ∉ assetName root := by
  intro hm
  rcases List.mem_append.mp hm with hm | hm
  · exact not_mem_of_isFlowId h (by decide) hm
  · revert hm
    decide

theorem length_assetName (root : Text) : (assetName root).length = root.length + 4 := by
  rw [assetName, List.length_append]
  rfl

theorem assetName_ne {root name : Text} (h : name.length < 4) : assetName root ≠ name := by
  rintro rfl
  rw [length_assetName] at h
  omega

/-- The picture of a valid id stands in the folder itself. -/
theorem assetPath_eq_child (folder : Path) {root : Text} (h : isFlowId root = true) :
    assetPath folder root = folder.child (assetName root) := by
  have hne : assetName root ≠ [] := assetName_ne (by decide)
  have hpoint : assetName root ≠ Text.ofString "." := assetName_ne (by decide)
  show folder.join (.ofText (assetName root)) = _
  rw [Path.ofText_eq_part (slash_not_mem_assetName h) hne hpoint]
  rfl

theorem name_assetPath (folder : Path) {root : Text} (h : isFlowId root = true) :
    (assetPath folder root).name = assetName root := by
  rw [assetPath_eq_child folder h, Path.name_child]

/-- Different pictures are shown as different files. -/
theorem shownAsset_injective {w : Workspace} {folder : Path} {root root' : Text}
    (hr : isFlowId root = true) (hr' : isFlowId root' = true)
    (h : shownAsset w folder root = shownAsset w folder root') : root = root' := by
  have habove : ∀ r, assetName r ≠ Path.above := fun r => assetName_ne (by decide)
  rw [shownAsset, shownAsset, assetPath_eq_child folder hr, assetPath_eq_child folder hr',
    Workspace.shownPath, Workspace.shownPath, Path.resolve_child _ _ (habove root),
    Path.resolve_child _ _ (habove root')] at h
  -- Both are shown behind the same folder.
  obtain ⟨front, hfront⟩ := Path.exists_text_eq _ (folder.resolve (w.current.map Name.text)).parts
  rw [Path.child, Path.child, hfront, hfront] at h
  exact assetName_injective (List.append_cancel_left h)

end SvgDeck
