/-
Settings and ids stay in their places.

No value is escaped on its way into the style or into an attribute, so all depends on what the
schema accepts: `isStylePart` is what the values of settings are made of, and they neither begin
nor end with a blank.  `StyleRule.read?` reads a rule code point by code point and refuses every
mark that could begin a string, a comment, a function, a nested block or a tag;
`Tag.readFirst?` reads the tag that a text begins with.

* `settings_and_ids_contained` — the rule of a valid document has ten lines and is read as its
  settings, and the element of a picture is read with the id of its flows.
-/
import SvgDeck.Page.Style
import SvgDeck.Proofs.Bundle
import SvgDeck.Proofs.Path
import SvgDeck.Proofs.Tags

namespace SvgDeck

open Text

/-! ### Lines -/

/-- The code points that end a line, in any of the ways in which texts are split into lines. -/
def CodePoint.isLineBreak (c : CodePoint) : Bool :=
  c.isBetween 0x0A 0x0D || c.isBetween 0x1C 0x1E || c.val == 0x85 || c.val == 0x2028 ||
    c.val == 0x2029

/-- Lines are found where they were joined, if none of them holds a line break. -/
theorem splitOnP_lines {parts : List Text} (hne : parts ≠ [])
    (h : ∀ part ∈ parts, ∀ c ∈ part, c.isLineBreak = false) :
    (Text.lines parts).splitOnP CodePoint.isLineBreak = parts := by
  induction parts with
  | nil => exact absurd rfl hne
  | cons part parts ih =>
    obtain ⟨hpart, hparts⟩ := List.forall_mem_cons.mp h
    cases parts with
    | nil =>
      rw [Text.lines, Text.join, List.intercalate_singleton, List.splitOnP_eq_singleton hpart]
    | cons next parts =>
      have hjoin : Text.lines (part :: next :: parts) =
          part ++ CodePoint.ofChar '\n' :: Text.lines (next :: parts) := by
        simp [Text.lines, Text.join]
      rw [hjoin, List.splitOnP_append_cons_of_forall_mem hpart _ (by decide),
        ih (List.cons_ne_nil _ _) hparts]

/-! ### Visible characters -/

/-- The visible characters of ASCII. -/
def CodePoint.IsVisible (c : CodePoint) : Prop := 0x21 ≤ c.val ∧ c.val ≤ 0x7E

instance (c : CodePoint) : Decidable c.IsVisible := by
  unfold CodePoint.IsVisible
  infer_instance

namespace CodePoint

variable {c : CodePoint}

theorem IsVisible.isLineBreak (h : c.IsVisible) : c.isLineBreak = false := by
  obtain ⟨hlow, hhigh⟩ := h
  simp only [CodePoint.isLineBreak, isBetween, Bool.or_eq_false_iff, Bool.and_eq_false_iff,
    decide_eq_false_iff_not, beq_eq_false_iff_ne]
  omega

theorem IsVisible.isBlank (h : c.IsVisible) : c.isBlank = false := by
  obtain ⟨hlow, hhigh⟩ := h
  simp only [CodePoint.isBlank, isSpace, isBetween, Bool.or_eq_false_iff, Bool.and_eq_false_iff,
    decide_eq_false_iff_not, beq_eq_false_iff_ne]
  omega

theorem isVisible_of_isAsciiAlphanumeric (h : c.isAsciiAlphanumeric = true) : c.IsVisible := by
  simp only [isAsciiAlphanumeric, isAsciiDigit, isAsciiUpper, isAsciiLower, isBetween,
    Bool.or_eq_true, Bool.and_eq_true, decide_eq_true_eq] at h
  rw [IsVisible]
  omega

theorem isVisible_of_isFlowIdPart (h : isFlowIdPart c = true) : c.IsVisible := by
  simp only [isFlowIdPart, Bool.or_eq_true, decide_eq_true_eq] at h
  rcases h with ((h | rfl) | rfl) | rfl
  · exact isVisible_of_isAsciiAlphanumeric h
  · decide
  · decide
  · decide

end CodePoint

/-! ### Names and values of properties -/

/-- What the names and values of properties are made of. -/
def CodePoint.isStylePart (c : CodePoint) : Bool :=
  c.isAsciiAlphanumeric || c = '.' || c = '#' || c = '-' || c = ' '

/-- The marks that could end a value, or begin something else inside it. -/
def styleMarks : Text := ";:\x7b\x7d<>\"'\\"

theorem not_mem_of_isStylePart {marks : Text} {c : CodePoint}
    (hmarks : ∀ m ∈ marks, m.isStylePart = false) (h : c.isStylePart = true) : c ∉ marks := by
  intro hc
  rw [hmarks c hc] at h
  cases h

/-- The parts are the blank and some visible characters. -/
theorem eq_blank_or_isVisible {c : CodePoint} (h : c.isStylePart = true) :
    c = CodePoint.ofChar ' ' ∨ c.IsVisible := by
  simp only [CodePoint.isStylePart, Bool.or_eq_true, decide_eq_true_eq] at h
  rcases h with (((h | rfl) | rfl) | rfl) | rfl
  · exact Or.inr (CodePoint.isVisible_of_isAsciiAlphanumeric h)
  · exact Or.inr (by decide)
  · exact Or.inr (by decide)
  · exact Or.inr (by decide)
  · exact Or.inl rfl

theorem isLineBreak_of_isStylePart {c : CodePoint} (h : c.isStylePart = true) :
    c.isLineBreak = false := by
  rcases eq_blank_or_isVisible h with rfl | hvisible
  · decide
  · exact hvisible.isLineBreak

/-- The text is made of such parts, with no blank at its ends. -/
structure IsStyleText (t : Text) : Prop where
  parts : ∀ c ∈ t, c.isStylePart = true
  head : ∀ c ∈ t.head?, c ≠ CodePoint.ofChar ' '
  last : ∀ c ∈ t.getLast?, c ≠ CodePoint.ofChar ' '

section Values

variable {t : Text} {c : CodePoint}

theorem isStyleText_of_forall (h : ∀ c ∈ t, c.isStylePart = true ∧ c ≠ CodePoint.ofChar ' ') :
    IsStyleText t :=
  ⟨fun c hc => (h c hc).1, fun c hc => (h c (List.mem_of_mem_head? hc)).2,
    fun c hc => (h c (List.mem_of_getLast? hc)).2⟩

theorem isStylePart_of_isAsciiAlphanumeric (h : c.isAsciiAlphanumeric = true) :
    c.isStylePart = true ∧ c ≠ CodePoint.ofChar ' ' := by
  refine ⟨by simp [CodePoint.isStylePart, h], ?_⟩
  rintro rfl
  revert h
  decide

theorem isStyleText_of_isFontSize (h : isFontSize t = true) : IsStyleText t := by
  simp only [isFontSize, Bool.and_eq_true, List.contains_iff_mem] at h
  have hunits : ∀ unit ∈ [Text.ofString "em", Text.ofString "px", Text.ofString "vmax"],
      ∀ c ∈ unit, c.isStylePart = true ∧ c ≠ CodePoint.ofChar ' ' := by decide
  refine isStyleText_of_forall fun c hc => ?_
  rw [← List.takeWhile_append_dropWhile
    (p := fun c => c.isAsciiDigit || c = CodePoint.ofChar '.') (l := t)] at hc
  rcases List.mem_append.mp hc with hc | hc
  · have hpart := List.all_eq_true.mp List.all_takeWhile c hc
    simp only [Bool.or_eq_true, decide_eq_true_eq] at hpart
    rcases hpart with hdigit | rfl
    · exact isStylePart_of_isAsciiAlphanumeric (by simp [CodePoint.isAsciiAlphanumeric, hdigit])
    · decide
  · exact hunits _ h.2 c hc

theorem isAsciiAlphanumeric_of_hexDigit? (h : c.hexDigit?.isSome = true) :
    c.isAsciiAlphanumeric = true := by
  simp only [CodePoint.isAsciiAlphanumeric, CodePoint.isAsciiUpper, CodePoint.isAsciiLower,
    CodePoint.isBetween, Bool.or_eq_true, Bool.and_eq_true, decide_eq_true_eq]
  simp only [CodePoint.hexDigit?, CodePoint.isBetween, Bool.and_eq_true, decide_eq_true_eq] at h
  split_ifs at h with hdigit hupper hlower
  · exact Or.inl (Or.inl hdigit)
  · exact Or.inl (Or.inr (by omega))
  · exact Or.inr (by omega)
  · cases h

theorem isStyleText_of_isColor (h : isColor t = true) : IsStyleText t := by
  cases t with
  | nil => cases h
  | cons c digits =>
    simp only [isColor, Bool.and_eq_true, decide_eq_true_eq, List.all_eq_true] at h
    obtain ⟨⟨⟨rfl, _⟩, _⟩, hdigits⟩ := h
    refine isStyleText_of_forall (List.forall_mem_cons.mpr ⟨by decide, fun c hc => ?_⟩)
    exact isStylePart_of_isAsciiAlphanumeric (isAsciiAlphanumeric_of_hexDigit? (hdigits c hc))

/-- A border is its style, a blank and its width. -/
theorem exists_of_isBorder (h : isBorder t = true) :
    ∃ style width : Text, style ≠ [] ∧ (∀ c ∈ style, c.isAsciiLower = true) ∧
      (∀ c ∈ width, c.isAsciiDigit = true) ∧ t = style ++ (" " ++ width) ++ "px" := by
  rw [isBorder, Bool.and_eq_true] at h
  obtain ⟨hstyle, hrest⟩ := h
  cases hdrop : t.dropWhile CodePoint.isAsciiLower with
  | nil =>
    rw [hdrop] at hrest
    cases hrest
  | cons blank rest =>
    simp only [hdrop, Bool.and_eq_true, decide_eq_true_eq] at hrest hstyle
    obtain ⟨⟨rfl, _⟩, hunit⟩ := hrest
    refine ⟨t.takeWhile CodePoint.isAsciiLower, rest.takeWhile CodePoint.isAsciiDigit, hstyle,
      List.all_eq_true.mp List.all_takeWhile, List.all_eq_true.mp List.all_takeWhile, ?_⟩
    -- The text is put together again from the two places at which it was cut.
    rw [List.append_assoc, List.append_assoc, ← hunit, List.takeWhile_append_dropWhile]
    show t = _ ++ CodePoint.ofChar ' ' :: rest
    rw [← hdrop, List.takeWhile_append_dropWhile]

/-- The blank of a border stands between its parts. -/
theorem isStyleText_of_isBorder (h : isBorder t = true) : IsStyleText t := by
  obtain ⟨style, width, hstyle, hlower, hdigit, rfl⟩ := exists_of_isBorder h
  have hletter : ∀ c ∈ style, c.isStylePart = true ∧ c ≠ CodePoint.ofChar ' ' := fun c hc =>
    isStylePart_of_isAsciiAlphanumeric (by simp [CodePoint.isAsciiAlphanumeric, hlower c hc])
  have hnumber : ∀ c ∈ width, c.isStylePart = true ∧ c ≠ CodePoint.ofChar ' ' := fun c hc =>
    isStylePart_of_isAsciiAlphanumeric (by simp [CodePoint.isAsciiAlphanumeric, hdigit c hc])
  refine ⟨?parts, fun c hc => ?head, fun c hc => ?last⟩
  case parts =>
    simp only [List.forall_mem_append]
    exact ⟨⟨fun c hc => (hletter c hc).1, by decide, fun c hc => (hnumber c hc).1⟩, by decide⟩
  case head =>
    rw [List.append_assoc, List.head?_append_of_ne_nil _ hstyle] at hc
    exact (hletter c (List.mem_of_mem_head? hc)).2
  case last =>
    rw [List.getLast?_append_of_ne_nil _ (by decide)] at hc
    have hunit : ∀ c ∈ (Text.ofString "px").getLast?, c ≠ CodePoint.ofChar ' ' := by decide
    exact hunit c hc

/-- The names and values of all properties are such texts. -/
theorem isStyleText_properties {s : Settings} (h : s.IsValid) :
    ∀ p ∈ s.properties, IsStyleText p.1 ∧ IsStyleText p.2 := by
  have hname : ∀ name ∈ s.properties.map Prod.fst, IsStyleText name := by
    have hparts : ∀ name ∈ s.properties.map Prod.fst,
        ∀ c ∈ name, c.isStylePart = true ∧ c ≠ CodePoint.ofChar ' ' := by
      simp only [Settings.properties, List.map_cons, List.map_nil]
      decide
    exact fun name hname => isStyleText_of_forall (hparts name hname)
  have hwhite : IsStyleText "#ffffff" := isStyleText_of_forall (by decide)
  have hnone : IsStyleText "none" := isStyleText_of_forall (by decide)
  have hcolor : ∀ o ∈ [s.svgPaneBackground, s.textPaneBackground],
      IsStyleText (settingOr "#ffffff" o) := fun o ho =>
    settingOr_of hwhite fun t ht => isStyleText_of_isColor (h.colors o ho t ht)
  have hborder : ∀ o ∈ [s.topBorder, s.bottomBorder, s.leftBorder, s.rightBorder],
      IsStyleText (settingOr "none" o) := fun o ho =>
    settingOr_of hnone fun t ht => isStyleText_of_isBorder (h.borders o ho t ht)
  have hvalue : ∀ p ∈ s.properties, IsStyleText p.2 := by
    simp only [List.forall_mem_cons] at hcolor hborder
    simp only [Settings.properties, List.forall_mem_cons]
    exact ⟨isStyleText_of_isFontSize h.minSize, isStyleText_of_isFontSize h.maxSize, hcolor.1,
      hcolor.2.1, hborder.1, hborder.2.1, hborder.2.2.1, hborder.2.2.2.1, List.forall_mem_nil _⟩
  exact fun p hp => ⟨hname _ (List.mem_map_of_mem hp), hvalue p hp⟩

/-- Trimming takes the blanks in front away, and nothing of the text. -/
theorem IsStyleText.trim_append (h : IsStyleText t) {front : Text}
    (hfront : ∀ c ∈ front, c.isSpace = true) : (front ++ t).trim CodePoint.isSpace = t := by
  have hdrop : ∀ s : Text, (∀ c ∈ s, c.isStylePart = true) →
      (∀ c ∈ s.head?, c ≠ CodePoint.ofChar ' ') → s.dropWhile CodePoint.isSpace = s := by
    intro s hparts hhead
    cases s with
    | nil => rfl
    | cons c s =>
      have hvisible := (eq_blank_or_isVisible (hparts c List.mem_cons_self)).resolve_left
        (hhead c rfl)
      have hspace : c.isSpace = false := (Bool.or_eq_false_iff.mp hvisible.isBlank).1
      rw [List.dropWhile_cons_of_neg (by simp [hspace])]
  -- At the end the same holds of the text read backwards.
  have hreverse : t.reverse.dropWhile CodePoint.isSpace = t.reverse := by
    refine hdrop _ (fun c hc => h.parts c (List.mem_reverse.mp hc)) fun c hc => ?_
    rw [List.head?_reverse] at hc
    exact h.last c hc
  rw [trim, List.dropWhile_append_of_pos hfront, hdrop t h.parts h.head, hreverse,
    List.reverse_reverse]

end Values

/-! ### Reading a rule -/

/-- A property as a line of its rule. -/
def declarationLine (p : Text × Text) : Text := "  " ++ p.1 ++ ": " ++ p.2 ++ ";"

namespace StyleRule

/-- Where a reader of style rules stands, and what it has read there. -/
inductive Place where
  | selector (read : Text)
  | name (selector read : Text)
  | value (selector name read : Text)
  | closed (selector : Text)
  | broken

/-- The declarations that were read, and the place of the reader. -/
structure Reader where
  declarations : List (Text × Text)
  place : Place

/-- The marks of strings, escapes, comments, functions, blocks, tags and rules of their own. -/
def refusedMarks : Text := "\"'\\/()[]\x7b\x7d<>@!;"

/-- Reads one code point. -/
def step : Reader → CodePoint → Reader
  | ⟨declarations, .selector t⟩, c =>
    if c = CodePoint.ofChar '\x7b' then ⟨declarations, .name (t.trim CodePoint.isSpace) []⟩
    else if c ∈ refusedMarks then ⟨declarations, .broken⟩
    else ⟨declarations, .selector (t ++ [c])⟩
  | ⟨declarations, .name selector t⟩, c =>
    if c = CodePoint.ofChar ':' then
      ⟨declarations, .value selector (t.trim CodePoint.isSpace) []⟩
    else if c = CodePoint.ofChar '\x7d' ∧ t.trim CodePoint.isSpace = [] then
      ⟨declarations, .closed selector⟩
    else if c ∈ refusedMarks then ⟨declarations, .broken⟩
    else ⟨declarations, .name selector (t ++ [c])⟩
  | ⟨declarations, .value selector name t⟩, c =>
    if c = CodePoint.ofChar ';' then
      ⟨declarations ++ [(name, t.trim CodePoint.isSpace)], .name selector []⟩
    else if c = CodePoint.ofChar ':' ∨ c ∈ refusedMarks then ⟨declarations, .broken⟩
    else ⟨declarations, .value selector name (t ++ [c])⟩
  | ⟨declarations, .closed _⟩, _ => ⟨declarations, .broken⟩
  | ⟨declarations, .broken⟩, _ => ⟨declarations, .broken⟩

/-- Reads a text that is one rule: its selector and its declarations. -/
def read? (t : Text) : Option (Text × List (Text × Text)) :=
  match t.foldl step ⟨[], .selector []⟩ with
  | ⟨declarations, .closed selector⟩ => some (selector, declarations)
  | _ => none

section Runs

variable {declarations more : List (Text × Text)} {selector name value t : Text}

/-- Style parts are taken in where a name or a value is read. -/
theorem foldl_of_isStylePart {place : Text → Place}
    (hplace : ∀ s c, c ≠ CodePoint.ofChar ':' → c ∉ refusedMarks →
      step ⟨declarations, place s⟩ c = ⟨declarations, place (s ++ [c])⟩)
    (ht : ∀ c ∈ t, c.isStylePart = true) (s : Text) :
    t.foldl step ⟨declarations, place s⟩ = ⟨declarations, place (s ++ t)⟩ := by
  have hmarks : ∀ m ∈ CodePoint.ofChar ':' :: refusedMarks, m.isStylePart = false := by decide
  induction t generalizing s with
  | nil => rw [List.foldl_nil, List.append_nil]
  | cons c t ih =>
    obtain ⟨hc, ht⟩ := List.forall_mem_cons.mp ht
    have hmark := not_mem_of_isStylePart hmarks hc
    rw [List.mem_cons, not_or] at hmark
    rw [List.foldl_cons, hplace s c hmark.1 hmark.2, ih ht, List.append_assoc,
      List.singleton_append]

/-- Past one declaration, with the line break before it. -/
theorem foldl_declaration (hname : IsStyleText name) (hvalue : IsStyleText value) :
    (CodePoint.ofChar '\n' :: declarationLine (name, value)).foldl step
        ⟨declarations, .name selector []⟩ =
      ⟨declarations ++ [(name, value)], .name selector []⟩ := by
  have hstart : (ofString "\n  ").foldl step ⟨declarations, .name selector []⟩ =
      ⟨declarations, .name selector "\n  "⟩ := rfl
  have hread : name.foldl step ⟨declarations, .name selector "\n  "⟩ =
      ⟨declarations, .name selector ("\n  " ++ name)⟩ := by
    refine foldl_of_isStylePart (fun s c hcolon hmark => ?_) hname.parts _
    have hend : c ≠ CodePoint.ofChar '\x7d' := fun h => hmark (by rw [h]; decide)
    rw [step, if_neg hcolon, if_neg (fun h => hend h.1), if_neg hmark]
  have hcolon : (ofString ": ").foldl step ⟨declarations, .name selector ("\n  " ++ name)⟩ =
      ⟨declarations, .value selector name " "⟩ := by
    have htrim : (ofString "\n  " ++ name).trim CodePoint.isSpace = name :=
      hname.trim_append (by decide)
    show Reader.mk declarations
      (.value selector ((ofString "\n  " ++ name).trim CodePoint.isSpace) " ") = _
    rw [htrim]
  have hread' : value.foldl step ⟨declarations, .value selector name " "⟩ =
      ⟨declarations, .value selector name (" " ++ value)⟩ := by
    refine foldl_of_isStylePart (fun s c hcolon hmark => ?_) hvalue.parts _
    have hend : c ≠ CodePoint.ofChar ';' := fun h => hmark (by rw [h]; decide)
    rw [step, if_neg hend, if_neg (not_or.mpr ⟨hcolon, hmark⟩)]
  have hend : (ofString ";").foldl step ⟨declarations, .value selector name (" " ++ value)⟩ =
      ⟨declarations ++ [(name, value)], .name selector []⟩ := by
    have htrim : (ofString " " ++ value).trim CodePoint.isSpace = value :=
      hvalue.trim_append (by decide)
    show Reader.mk (declarations ++ [(name, (ofString " " ++ value).trim CodePoint.isSpace)])
      (.name selector []) = _
    rw [htrim]
  -- The five runs, one after the other.
  show (ofString "\n  " ++ name ++ ": " ++ value ++ ";").foldl step _ = _
  rw [List.foldl_append, List.foldl_append, List.foldl_append, List.foldl_append, hstart, hread,
    hcolon, hread', hend]

theorem foldl_declarations (h : ∀ p ∈ more, IsStyleText p.1 ∧ IsStyleText p.2) :
    (more.flatMap fun p => CodePoint.ofChar '\n' :: declarationLine p).foldl step
        ⟨declarations, .name selector []⟩ =
      ⟨declarations ++ more, .name selector []⟩ := by
  induction more generalizing declarations with
  | nil => rw [List.append_nil]; rfl
  | cons p more ih =>
    obtain ⟨hp, hmore⟩ := List.forall_mem_cons.mp h
    rw [List.flatMap_cons, List.foldl_append, foldl_declaration hp.1 hp.2, ih hmore,
      List.append_assoc, List.singleton_append]

end Runs

end StyleRule

/-! ### The rule of the settings -/

section Rules

variable {s : Settings}

/-- The lines of the rule. -/
def Settings.ruleLines (s : Settings) : List Text :=
  (":root \x7b" : Text) :: s.properties.map declarationLine ++ [("\x7d" : Text)]

/-- Each line but the first follows a line break. -/
theorem lines_eq_flatMap (first : Text) (more : List Text) :
    Text.lines (first :: more) = first ++ more.flatMap (CodePoint.ofChar '\n' :: ·) := by
  induction more generalizing first with
  | nil => simp [Text.lines, Text.join]
  | cons next more ih =>
    have hjoin : Text.lines (first :: next :: more) =
        first ++ CodePoint.ofChar '\n' :: Text.lines (next :: more) := by
      simp [Text.lines, Text.join]
    rw [hjoin, ih, List.flatMap_cons, List.cons_append]

theorem styleRule_eq_lines (s : Settings) : s.styleRule = Text.lines s.ruleLines := by
  have hlines : CodePoint.ofChar '\n' :: Text.lines (s.properties.map declarationLine) =
      (s.properties.map declarationLine).flatMap (CodePoint.ofChar '\n' :: ·) := by
    rw [Settings.properties, List.map_cons, lines_eq_flatMap, List.flatMap_cons, List.cons_append]
  rw [Settings.ruleLines, List.cons_append, lines_eq_flatMap, List.flatMap_append, ← hlines]
  show ofString ":root \x7b" ++
    CodePoint.ofChar '\n' :: Text.lines (s.properties.map declarationLine) ++ "\n\x7d" = _
  rw [List.append_assoc]
  rfl

theorem splitOnP_styleRule (h : s.IsValid) :
    s.styleRule.splitOnP CodePoint.isLineBreak = s.ruleLines := by
  have hpart : ∀ t, IsStyleText t → ∀ c ∈ t, c.isLineBreak = false := fun t ht c hc =>
    isLineBreak_of_isStylePart (ht.parts c hc)
  rw [styleRule_eq_lines]
  refine splitOnP_lines (List.cons_ne_nil _ _) ?_
  simp only [Settings.ruleLines, List.forall_mem_append, List.forall_mem_cons, List.forall_mem_map,
    declarationLine]
  refine ⟨⟨by decide, fun p hp => ?_⟩, by decide, List.forall_mem_nil _⟩
  obtain ⟨hname, hvalue⟩ := isStyleText_properties h p hp
  exact ⟨⟨⟨⟨by decide, hpart _ hname⟩, by decide⟩, hpart _ hvalue⟩, by decide⟩

/-- **The rule of valid settings is read as they are.** -/
theorem read?_styleRule (h : s.IsValid) :
    StyleRule.read? s.styleRule = some (Text.ofString ":root", s.properties) := by
  have hstart : (ofString ":root \x7b").foldl StyleRule.step ⟨[], .selector []⟩ =
      ⟨[], .name ":root" []⟩ := rfl
  have hend : (ofString "\n\x7d").foldl StyleRule.step ⟨s.properties, .name ":root" []⟩ =
      ⟨s.properties, .closed ":root"⟩ := rfl
  have hrule : s.styleRule = ofString ":root \x7b" ++
      (s.properties.flatMap fun p => CodePoint.ofChar '\n' :: declarationLine p) ++ "\n\x7d" := by
    rw [styleRule_eq_lines, Settings.ruleLines, List.cons_append, lines_eq_flatMap,
      List.flatMap_append, List.flatMap_map, List.append_assoc]
    rfl
  rw [StyleRule.read?, hrule, List.foldl_append, List.foldl_append, hstart,
    StyleRule.foldl_declarations (isStyleText_properties h), List.nil_append, hend]

/-- The declarations hold the settings, or what stands for unset ones. -/
structure Declares (declarations : List (Text × Text)) (s : Settings) : Prop where
  minSize : declarations.lookup (ofString "--min-font-size") = some s.minSize
  maxSize : declarations.lookup (ofString "--max-font-size") = some s.maxSize
  svgPane : declarations.lookup (ofString "--svg-pane-bg") =
    some (s.svgPaneBackground.getD "#ffffff")
  textPane : declarations.lookup (ofString "--text-pane-bg") =
    some (s.textPaneBackground.getD "#ffffff")
  topBorder : declarations.lookup (ofString "--top-border") = some (s.topBorder.getD "none")
  bottomBorder : declarations.lookup (ofString "--bottom-border") = some (s.bottomBorder.getD "none")
  leftBorder : declarations.lookup (ofString "--left-border") = some (s.leftBorder.getD "none")
  rightBorder : declarations.lookup (ofString "--right-border") = some (s.rightBorder.getD "none")
  length : declarations.length = 8

theorem declares_properties {s : Settings} (h : s.IsValid) : Declares s.properties s := by
  -- No setting of a valid document is empty.
  have hcolors : ∀ o ∈ [s.svgPaneBackground, s.textPaneBackground],
      settingOr "#ffffff" o = o.getD "#ffffff" := by
    refine fun o ho => settingOr_eq_getD ?_
    rintro t ht rfl
    exact absurd (h.colors o ho [] ht) (by decide)
  have hborders : ∀ o ∈ [s.topBorder, s.bottomBorder, s.leftBorder, s.rightBorder],
      settingOr "none" o = o.getD "none" := by
    refine fun o ho => settingOr_eq_getD ?_
    rintro t ht rfl
    exact absurd (h.borders o ho [] ht) (by decide)
  simp only [List.forall_mem_cons] at hcolors hborders
  obtain ⟨hsvg, htext, _⟩ := hcolors
  obtain ⟨htop, hbottom, hleft, hright, _⟩ := hborders
  exact ⟨rfl, rfl, congrArg some hsvg, congrArg some htext, congrArg some htop,
    congrArg some hbottom, congrArg some hleft, congrArg some hright, rfl⟩

end Rules

/-! ### The element of a picture -/

namespace Tag

/-- Reads up to the end of the first tag: the tag, and what follows it. -/
def readFirst? : Reader → Text → Option (Tag × Text)
  | _, [] => none
  | r, c :: t =>
    match step r c with
    | ⟨[tag], .content⟩ => some (tag, t)
    | next => readFirst? next t

/-- Only a closing bracket ends a tag. -/
theorem tags_step {r : Reader} {c : CodePoint} (hc : c ≠ CodePoint.ofChar '>') :
    (step r c).tags = r.tags := by
  obtain ⟨tags, place⟩ := r
  cases place <;> simp only [step, stepBehind, if_neg hc] <;> split_ifs <;> rfl

/-- No tag ends before its closing bracket. -/
theorem readFirst?_append {front rest : Text} {tag : Tag} {r : Reader} (hr : r.tags = [])
    (hread : (front ++ [CodePoint.ofChar '>']).foldl step r = ⟨[tag], .content⟩)
    (hfront : CodePoint.ofChar '>' ∉ front) :
    readFirst? r (front ++ CodePoint.ofChar '>' :: rest) = some (tag, rest) := by
  induction front generalizing r with
  | nil =>
    have hstep : step r (CodePoint.ofChar '>') = ⟨[tag], .content⟩ := hread
    rw [List.nil_append, readFirst?, hstep]
  | cons c front ih =>
    -- One more step keeps the reader without tags, so it is not the last one.
    rw [List.mem_cons, not_or] at hfront
    have htags := (tags_step (r := r) (Ne.symm hfront.1)).trans hr
    have hnext := ih htags hread hfront.2
    rw [List.cons_append, readFirst?]
    cases hstep : step r c with
    | mk tags place =>
      rw [hstep] at htags hnext
      obtain rfl : tags = [] := htags
      exact hnext

/-- **A tag is read from the front of a text**, whatever its attributes hold. -/
theorem readFirst?_print {name : Text} {attributes : List (Text × Text)}
    (h : (opening name attributes).IsNamed) (rest : Text) :
    readFirst? ⟨[], .content⟩ ((opening name attributes).print ++ rest) =
      some (opening name attributes, rest) := by
  have hname : ∀ t : Text, IsName t → CodePoint.ofChar '>' ∉ t := fun t ht hmem => by
    cases ht.2 _ hmem
  have hattributes : CodePoint.ofChar '>' ∉ printAttributes attributes := by
    intro hmem
    obtain ⟨a, ha, hmem⟩ := List.mem_flatMap.mp hmem
    simp only [List.mem_append] at hmem
    rcases hmem with (((hmem | hmem) | hmem) | hmem) | hmem
    · revert hmem
      decide
    · exact hname _ (h.2 a ha) hmem
    · revert hmem
      decide
    · cases not_isMark_of_mem_escapeMarkup hmem
    · revert hmem
      decide
  have hfront : CodePoint.ofChar '>' ∉ "<" ++ name ++ printAttributes attributes := by
    rw [List.mem_append, List.mem_append, not_or, not_or]
    exact ⟨⟨by decide, hname _ h.1⟩, hattributes⟩
  have hprint : (opening name attributes).print ++ rest =
      "<" ++ name ++ printAttributes attributes ++ CodePoint.ofChar '>' :: rest := by
    simp [print, ofString]
  rw [hprint]
  exact readFirst?_append rfl (foldl_print h) hfront

end Tag

section Roots

variable {root : Text}

theorem isPlain_of_isFlowId (h : isFlowId root = true) : IsPlain root := by
  intro c hc
  have hmark : ∀ m : CodePoint, isFlowIdPart m = false → c ≠ m := by
    rintro m hm rfl
    exact not_mem_of_isFlowId h hm hc
  rw [CodePoint.escapeMarkup, if_neg (hmark _ (by decide)), if_neg (hmark _ (by decide)),
    if_neg (hmark _ (by decide)), if_neg (hmark _ (by decide)), if_neg (hmark _ (by decide))]

/-- The element of a picture begins with its tag. -/
theorem readFirst?_wrapBody (h : isFlowId root = true) (body : Text) :
    Tag.readFirst? ⟨[], .content⟩ (wrapBody root body) =
      some (.opening "div" [("id", root), ("class", "flow-svg")], "\n" ++ body ++ "\n</div>") := by
  have hnamed : (Tag.opening "div" [("id", root), ("class", "flow-svg")]).IsNamed := by
    refine ⟨⟨by decide, by decide⟩, ?_⟩
    simp only [List.forall_mem_cons]
    exact ⟨⟨by decide, by decide⟩, ⟨by decide, by decide⟩, List.forall_mem_nil _⟩
  have hwrap : wrapBody root body =
      (Tag.opening "div" [("id", root), ("class", "flow-svg")]).print ++
        ("\n" ++ body ++ "\n</div>") := by
    have hclass : (ofString "flow-svg").escapeMarkup = ofString "flow-svg" := rfl
    simp only [Tag.print, Tag.printAttributes, List.flatMap_cons, List.flatMap_nil, hclass,
      (isPlain_of_isFlowId h).escapeMarkup_eq]
    simp [wrapBody, ofString]
  rw [hwrap, Tag.readFirst?_print hnamed]

end Roots

/-- **Settings and ids stay in their places.**  The rule of a valid document has ten lines, no
value in it holds a mark or a line break, and it is read as the settings or what stands for unset
ones.  An id holds no mark and no blank, and the element of its picture is read with it, whatever
the picture is. -/
theorem settings_and_ids_contained {d : Document} (h : d.IsValid) :
    (∃ declarations,
      StyleRule.read? d.settings.styleRule = some (Text.ofString ":root", declarations) ∧
      Declares declarations d.settings ∧
      d.settings.styleRule.splitOnP CodePoint.isLineBreak =
        [Text.ofString ":root \x7b"] ++ declarations.map declarationLine ++
          [Text.ofString "\x7d"] ∧
      ∀ p ∈ declarations, ∀ c ∈ p.2, c ∉ styleMarks ∧ c.isLineBreak = false) ∧
    ∀ root ∈ d.pictures,
      (∀ c ∈ root, c ∉ Text.ofString "\"'<>&" ∧ c.isBlank = false) ∧
      ∀ body, Tag.readFirst? ⟨[], .content⟩ (wrapBody root body) =
        some (.opening "div" [("id", root), ("class", "flow-svg")],
          "\n" ++ body ++ "\n</div>") := by
  refine ⟨⟨d.settings.properties, read?_styleRule h.settings, declares_properties h.settings,
    splitOnP_styleRule h.settings, fun p hp c hc => ?_⟩, fun root hroot => ?_⟩
  · have hpart := (isStyleText_properties h.settings p hp).2.parts c hc
    exact ⟨not_mem_of_isStylePart (by decide) hpart, isLineBreak_of_isStylePart hpart⟩
  · have hid := isFlowId_of_mem_pictures h hroot
    refine ⟨fun c hc => ⟨fun hmark => ?_, ?_⟩, readFirst?_wrapBody hid⟩
    · have hmarks : ∀ m ∈ Text.ofString "\"'<>&", isFlowIdPart m = false := by decide
      exact not_mem_of_isFlowId hid (hmarks c hmark) hc
    · rw [isFlowId, Bool.and_eq_true, List.all_eq_true] at hid
      exact (CodePoint.isVisible_of_isFlowIdPart (hid.2 c hc)).isBlank

theorem settings_and_ids_contained_talk :
    talk.IsValid ∧ (∃ declarations,
      StyleRule.read? talk.settings.styleRule = some (Text.ofString ":root", declarations) ∧
        Declares declarations talk.settings) ∧
      Tag.readFirst? ⟨[], .content⟩ (wrapBody "a__1" "<svg/>") =
        some (Tag.opening "div" [("id", "a__1"), ("class", "flow-svg")],
          Text.ofString "\n<svg/>\n</div>") := by
  have hvalid : talk.IsValid := by
    refine ⟨⟨by decide, by decide, by decide, by decide⟩, by decide⟩
  obtain ⟨⟨declarations, hread, hdeclares, _⟩, hroots⟩ := settings_and_ids_contained hvalid
  exact ⟨hvalid, ⟨declarations, hread, hdeclares⟩, (hroots "a__1" (by decide)).2 "<svg/>"⟩

end SvgDeck
