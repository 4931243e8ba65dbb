/-
Outlines lose nothing.

The markup of a highlight is a row of tags in print, three for each rectangle.  Whatever its color
holds is escaped, so the marks of markup stand where the outlines have them and nowhere else
(`marks_markup`), and the tags are read back with all values as they are written.  So the markup of
a highlight determines its tokens, its start, and its duration as it is shown.

* `compileHighlight_faithful` — how the markup of a highlight reads, and when two highlights have
  the same one;
* `faintHighlight_not_faithful` — two highlights with different ends and the same markup.
-/
import SvgDeck.Proofs.Exactness
import SvgDeck.Proofs.Tags

namespace SvgDeck

open Directive

namespace Directive

/-! ### Values that need no escape -/

theorem isPlain_of_mem {t : Text} (h : ∀ c ∈ t, c.isDigit = true ∨ c ∈ Text.ofString ".;,-s") :
    IsPlain t := by
  have hothers : ∀ c ∈ Text.ofString ".;,-s", c.escapeMarkup = [c] := by decide
  intro c hc
  rcases h c hc with hdigit | hother
  · rw [CodePoint.escapeMarkup]
    split_ifs with hamp hlt hgt hquot hapos
    · exact absurd (hamp ▸ hdigit) (by decide)
    · exact absurd (hlt ▸ hdigit) (by decide)
    · exact absurd (hgt ▸ hdigit) (by decide)
    · exact absurd (hquot ▸ hdigit) (by decide)
    · exact absurd (hapos ▸ hdigit) (by decide)
    · rfl
  · exact hothers c hother

theorem isPlain_separator {c : CodePoint} (h : c ∈ Text.ofString ".;,-s") : IsPlain [c] :=
  isPlain_of_mem fun _ hd => Or.inr (List.mem_singleton.mp hd ▸ h)

theorem Writes.isPlain {t : Text} {q : ℚ} (h : Writes t q) : IsPlain t := by
  refine isPlain_of_mem fun c hc => ?_
  by_contra hnone
  obtain ⟨hdigit, hpoint⟩ := not_or.mp hnone
  refine h.not_mem (by simpa using hdigit) (fun hc => hpoint ?_) hc
  rw [hc]
  decide

theorem IsOpacities.isPlain {t : Text} (h : IsOpacities t) : IsPlain t := by
  induction h with
  | one hs =>
    obtain ⟨q, hq⟩ := hs
    exact hq.isPlain
  | @more s rest c hs hc _ ih =>
    obtain ⟨q, hq⟩ := hs
    have hseparator : IsPlain [c] := by
      rw [isOpacitySeparator, Bool.or_eq_true, decide_eq_true_eq, decide_eq_true_eq] at hc
      rcases hc with rfl | rfl <;> exact isPlain_separator (by decide)
    exact isPlain_append.mpr ⟨hq.isPlain, isPlain_append.mpr ⟨hseparator, ih⟩⟩

theorem isPlain_formatSeconds (d : Decimal) : IsPlain (formatSeconds d) := by
  obtain ⟨n, hn, htext, _⟩ := exists_formatSeconds_eq d
  have hsign : IsPlain d.sign := by
    rw [Decimal.sign]
    split
    · exact isPlain_separator (by decide)
    · exact fun c hc => absurd hc List.not_mem_nil
  rw [htext, isPlain_append, isPlain_append]
  exact ⟨⟨hsign, hn.writes.isPlain⟩, isPlain_separator (by decide)⟩

/-! ### Tags of an outline -/

/-- What all outlines of a highlight have in common. -/
structure Stroke where
  color : Text
  thickness : Text
  opacities : Text
  begins : Text
  lasts : Text

namespace Stroke

/-- The attributes of an outline. -/
def frame (s : Stroke) : List (Text × Text) :=
  [("rx", "10"), ("ry", "10"), ("fill", "transparent"), ("stroke", s.color),
    ("stroke-width", s.thickness), ("stroke-opacity", "0")]

/-- The attributes of its animation. -/
def pulse (s : Stroke) : List (Text × Text) :=
  [("attributeName", "stroke-opacity"), ("values", s.opacities), ("begin", s.begins),
    ("dur", s.lasts), ("fill", "freeze")]

/-- The attributes for the components of a rectangle. -/
def geometry (components : List Text) : List (Text × Text) :=
  (["x", "y", "width", "height"] : List Text).zip components

/-- The tags of the outline of a rectangle with these components. -/
def tags (s : Stroke) (components : List Text) : List Tag :=
  [.opening "rect" (geometry components ++ s.frame), .empty "animate" s.pulse, .closing "rect"]

end Stroke

/-- The stroke of a highlight that is shown for `duration`. -/
def Highlight.stroke (h : Highlight) (duration : Decimal) : Stroke where
  color := h.color
  thickness := h.thickness
  opacities := h.opacities
  begins := formatSeconds h.timing.start
  lasts := formatSeconds duration

/-- The tags of all outlines. -/
def Highlight.tags (h : Highlight) (duration : Decimal) : List Tag :=
  (h.rects.map Rect.components).flatMap (h.stroke duration).tags

section Stroke

variable {s s' : Stroke} {x y w height : Text}

theorem Stroke.isNamed_tags (s : Stroke) (components : List Text) :
    ∀ tag ∈ s.tags components, tag.IsNamed := by
  have hnames : ∀ name ∈ (["rect", "animate", "x", "y", "width", "height", "rx", "ry", "fill",
      "stroke", "stroke-width", "stroke-opacity", "attributeName", "values", "begin", "dur"] :
      List Text), Tag.IsName name := by
    simp only [Tag.IsName]
    decide
  have hgeometry : ∀ a ∈ geometry components, Tag.IsName a.1 := fun a ha =>
    hnames a.1 (List.Sublist.subset (by decide) (List.of_mem_zip (a := a.1) (b := a.2) ha).1)
  have hframe : ∀ a ∈ s.frame, Tag.IsName a.1 := by simp [frame, hnames]
  have hpulse : ∀ a ∈ s.pulse, Tag.IsName a.1 := by simp [pulse, hnames]
  have hrect : Tag.IsName "rect" := hnames _ (by simp)
  have hanimate : Tag.IsName "animate" := hnames _ (by simp)
  simp only [tags, List.forall_mem_cons, Tag.IsNamed, List.forall_mem_append]
  exact ⟨⟨hrect, hgeometry, hframe⟩, ⟨hanimate, hpulse⟩, hrect, by simp⟩

/-- In print the tags of an outline are its element. -/
theorem Stroke.print_tags (hx : IsPlain x) (hy : IsPlain y) (hw : IsPlain w)
    (hheight : IsPlain height) (hthickness : IsPlain s.thickness) (hopacities : IsPlain s.opacities)
    (hbegins : IsPlain s.begins) (hlasts : IsPlain s.lasts) :
    (s.tags [x, y, w, height]).flatMap Tag.print =
      rectElement x y w height s.color s.thickness
        (animation "stroke-opacity" s.opacities s.begins s.lasts) := by
  have hfixed : ∀ t ∈ (["10", "transparent", "0", "stroke-opacity", "freeze"] : List Text),
      t.escapeMarkup = t := by decide
  simp only [List.forall_mem_cons] at hfixed
  obtain ⟨hten, htransparent, hzero, hopacity, hfreeze, _⟩ := hfixed
  simp only [tags, geometry, frame, pulse, List.flatMap_cons, List.flatMap_nil, Tag.print,
    Tag.printAttributes, List.zip_cons_cons, List.zip_nil_left, List.cons_append, List.nil_append,
    hx.escapeMarkup_eq, hy.escapeMarkup_eq, hw.escapeMarkup_eq, hheight.escapeMarkup_eq,
    hthickness.escapeMarkup_eq, hopacities.escapeMarkup_eq, hbegins.escapeMarkup_eq,
    hlasts.escapeMarkup_eq, hten, htransparent, hzero, hopacity, hfreeze]
  simp [rectElement, animation, Text.ofString]

/-- The tags of an outline hold all that it is made of. -/
theorem Stroke.tags_inj {p q : List Text} (hp : p.length = 4) (hq : q.length = 4)
    (h : s.tags p = s'.tags q) : p = q ∧ s = s' := by
  simp only [tags, List.cons.injEq, Tag.opening.injEq, Tag.empty.injEq, true_and, and_true] at h
  obtain ⟨hrect, hpulse⟩ := h
  obtain ⟨hgeometry, hframe⟩ := List.append_inj hrect (by simp [geometry, hp, hq])
  have hcomponents := congrArg (List.map Prod.snd) hgeometry
  rw [geometry, geometry, List.map_snd_zip (by simp [hp]), List.map_snd_zip (by simp [hq])]
    at hcomponents
  refine ⟨hcomponents, ?_⟩
  obtain ⟨color, thickness, opacities, begins, lasts⟩ := s
  obtain ⟨color', thickness', opacities', begins', lasts'⟩ := s'
  simp only [frame, pulse, List.cons.injEq, Prod.mk.injEq, true_and, and_true] at hframe hpulse
  simp [hframe, hpulse]

/-- So do the tags of all outlines, if there is one. -/
theorem Stroke.flatMap_tags_inj {ps qs : List (List Text)} (hps : ∀ p ∈ ps, p.length = 4)
    (hqs : ∀ q ∈ qs, q.length = 4) (hne : ps ≠ []) :
    ps.flatMap s.tags = qs.flatMap s'.tags ↔ ps = qs ∧ s = s' := by
  constructor
  · intro h
    -- The tags of the first outline show the stroke, those of each its rectangle.
    induction ps generalizing qs with
    | nil => exact absurd rfl hne
    | cons p ps ih =>
      cases qs with
      | nil => cases h
      | cons q qs =>
        obtain ⟨hp, hps⟩ := List.forall_mem_cons.mp hps
        obtain ⟨hq, hqs⟩ := List.forall_mem_cons.mp hqs
        rw [List.flatMap_cons, List.flatMap_cons] at h
        obtain ⟨hfirst, hrest⟩ := List.append_inj h rfl
        obtain ⟨hpq, hs⟩ := tags_inj hp hq hfirst
        refine ⟨?_, hs⟩
        rcases eq_or_ne ps [] with rfl | hne
        · cases qs with
          | nil => rw [hpq]
          | cons q qs => cases hrest
        · rw [hpq, (ih hps hqs hne hrest).1]
  · rintro ⟨rfl, rfl⟩
    rfl

end Stroke

/-! ### Markup of a highlight -/

/-- The outline with all its values left out. -/
def bareOutline : Text := rectElement [] [] [] [] [] [] (animation "stroke-opacity" [] [] [])

theorem filter_isMark_of_isPlain {t : Text} (h : IsPlain t) : t.filter CodePoint.isMark = [] := by
  refine List.filter_eq_nil_iff.mpr fun c hc => ?_
  rw [← h.escapeMarkup_eq] at hc
  simp [not_isMark_of_mem_escapeMarkup hc]

/-- The marks of an outline are those of its skeleton. -/
theorem filter_isMark_rectElement {x y w height color thickness opacities begins lasts : Text}
    (hx : IsPlain x) (hy : IsPlain y) (hw : IsPlain w) (hheight : IsPlain height)
    (hthickness : IsPlain thickness) (hopacities : IsPlain opacities) (hbegins : IsPlain begins)
    (hlasts : IsPlain lasts) :
    (rectElement x y w height color thickness
        (animation "stroke-opacity" opacities begins lasts)).filter CodePoint.isMark =
      bareOutline.filter CodePoint.isMark := by
  have hcolor : color.escapeMarkup.filter CodePoint.isMark = [] :=
    List.filter_eq_nil_iff.mpr fun c hc => by simp [not_isMark_of_mem_escapeMarkup hc]
  have hnil : Text.escapeMarkup [] = [] := rfl
  simp only [bareOutline, rectElement, animation, List.filter_append, hcolor, hnil,
    filter_isMark_of_isPlain hx, filter_isMark_of_isPlain hy, filter_isMark_of_isPlain hw,
    filter_isMark_of_isPlain hheight, filter_isMark_of_isPlain hthickness,
    filter_isMark_of_isPlain hopacities, filter_isMark_of_isPlain hbegins,
    filter_isMark_of_isPlain hlasts, List.filter_nil]

namespace Highlight

variable {h h' : Highlight} {d d' : Decimal} {text text' : Text}

/-- What is known of the parts of a highlight that was read. -/
structure IsRead (h : Highlight) (text : Text) : Prop where
  thickness : IsPlain h.thickness
  opacities : IsPlain h.opacities
  rects : ∀ r ∈ h.rects, ∃ x y w height, r.components = [x, y, w, height] ∧
    IsPlain x ∧ IsPlain y ∧ IsPlain w ∧ IsPlain height
  nonempty : h.rects ≠ []
  tokens : ∃ rects, text.words.take 4 = [rects, h.color, h.thickness, h.opacities] ∧
    h.rects.map Rect.source = rects.splitOn (CodePoint.ofChar ';')
  start : h.timing.start.negative = false
  stop : h.timing.stop.negative = false

theorem isRead (hparse : Highlight.parse text = .ok h) : h.IsRead text := by
  obtain ⟨rects, start, stop, hwords, hrects, ⟨q, hthickness⟩, hopacities, htiming⟩ :=
    parse_eq_ok hparse
  obtain ⟨_, hpieces, _⟩ := Rect.parseList_eq_ok hrects
  have hwritten := Rect.isWritten_of_parseList hrects
  constructor
  case thickness => exact hthickness.isPlain
  case opacities => exact hopacities.isPlain
  case rects =>
    intro r hr
    obtain ⟨x, y, w, height, hsource, hx, hy, hw, hheight⟩ := hwritten r hr
    exact ⟨x, y, w, height, hsource, hx.isPlain, hy.isPlain, hw.isPlain, hheight.isPlain⟩
  case nonempty =>
    intro hnil
    rw [hnil, List.map_nil] at hpieces
    exact List.splitOn_ne_nil _ rects hpieces.symm
  case tokens => exact ⟨rects, by rw [hwords]; rfl, hpieces⟩
  case start => exact (Timing.negative_of_parse htiming).1
  case stop => exact (Timing.negative_of_parse htiming).2

/-- The markup of a highlight is the print of its tags. -/
theorem IsRead.markup_eq (hread : h.IsRead text) (d : Decimal) :
    h.markup d = (h.tags d).flatMap Tag.print := by
  rw [tags, List.flatMap_assoc, List.flatMap_map, markup]
  refine List.flatMap_congr fun r hr => ?_
  obtain ⟨x, y, w, height, hcomponents, hx, hy, hw, hheight⟩ := hread.rects r hr
  rw [hcomponents, Stroke.print_tags hx hy hw hheight hread.thickness hread.opacities
    (isPlain_formatSeconds _) (isPlain_formatSeconds _), outline_eq h _ hcomponents]
  rfl

/-- All its marks are those of outlines. -/
theorem IsRead.marks_markup (hread : h.IsRead text) (d : Decimal) :
    (h.markup d).filter CodePoint.isMark =
      h.rects.flatMap fun _ => bareOutline.filter CodePoint.isMark := by
  rw [markup, List.filter_flatMap]
  refine List.flatMap_congr fun r hr => ?_
  obtain ⟨x, y, w, height, hcomponents, hx, hy, hw, hheight⟩ := hread.rects r hr
  rw [outline_eq h _ hcomponents, animate_eq]
  exact filter_isMark_rectElement hx hy hw hheight hread.thickness hread.opacities
    (isPlain_formatSeconds _) (isPlain_formatSeconds _)

/-- There is no single quote in it. -/
theorem IsRead.apostrophe_not_mem (hread : h.IsRead text) (d : Decimal) :
    CodePoint.ofChar '\'' ∉ h.markup d := by
  intro hmem
  have hmark : CodePoint.ofChar '\'' ∈ (h.markup d).filter CodePoint.isMark :=
    List.mem_filter.mpr ⟨hmem, by decide⟩
  rw [hread.marks_markup] at hmark
  obtain ⟨_, _, hbare⟩ := List.mem_flatMap.mp hmark
  exact absurd hbare (by decide +kernel)

theorem isNamed_tags (h : Highlight) (d : Decimal) : ∀ tag ∈ h.tags d, tag.IsNamed := by
  intro tag htag
  obtain ⟨components, _, htag⟩ := List.mem_flatMap.mp htag
  exact Stroke.isNamed_tags _ components tag htag

theorem IsRead.readTags?_markup (hread : h.IsRead text) (d : Decimal) :
    Tag.readTags? (h.markup d) = some (h.tags d) := by
  rw [hread.markup_eq, Tag.readTags?_print (isNamed_tags h d)]

/-! ### Two highlights -/

/-- The components of the rectangles are those of the token. -/
theorem IsRead.components_eq_iff (hread : h.IsRead text) (hread' : h'.IsRead text') :
    (h.rects.map Rect.components = h'.rects.map Rect.components ∧ h.color = h'.color ∧
      h.thickness = h'.thickness ∧ h.opacities = h'.opacities) ↔
      text.words.take 4 = text'.words.take 4 := by
  obtain ⟨rects, hwords, hpieces⟩ := hread.tokens
  obtain ⟨rects', hwords', hpieces'⟩ := hread'.tokens
  have hcomponents : ∀ {rects : List Rect} {token : Text},
      rects.map Rect.source = token.splitOn (CodePoint.ofChar ';') →
      rects.map Rect.components =
        (token.splitOn (CodePoint.ofChar ';')).map (List.splitOn (CodePoint.ofChar ',')) := by
    intro rects token h
    rw [← h, List.map_map]
    rfl
  have hsplit : ∀ c : CodePoint, Function.Injective (List.splitOn c) := by
    intro c s t h
    calc s = List.intercalate [c] (s.splitOn c) := (List.intercalate_splitOn c).symm
      _ = List.intercalate [c] (t.splitOn c) := by rw [h]
      _ = t := List.intercalate_splitOn c
  rw [hwords, hwords', hcomponents hpieces, hcomponents hpieces',
    (List.map_injective_iff.mpr (hsplit _)).eq_iff, (hsplit _).eq_iff]
  simp

/-- **The markup determines the tokens, the start and the duration as it is shown.** -/
theorem IsRead.markup_inj (hread : h.IsRead text) (hread' : h'.IsRead text') :
    h.markup d = h'.markup d' ↔ text.words.take 4 = text'.words.take 4 ∧
      h.timing.start.value = h'.timing.start.value ∧ formatSeconds d = formatSeconds d' := by
  have hfour : ∀ {h : Highlight} {text : Text}, h.IsRead text →
      ∀ p ∈ h.rects.map Rect.components, p.length = 4 := by
    intro h text hread
    refine List.forall_mem_map.mpr fun r hr => ?_
    obtain ⟨x, y, w, height, hcomponents, _⟩ := hread.rects r hr
    rw [hcomponents]
    rfl
  have hne : h.rects.map Rect.components ≠ [] := by simpa using hread.nonempty
  have hstart : formatSeconds h.timing.start = formatSeconds h'.timing.start ↔
      h.timing.start.value = h'.timing.start.value := by
    rw [formatSeconds_inj, hread.start, hread'.start, eq_self_iff_true, true_and]
  rw [hread.markup_eq, hread'.markup_eq,
    Tag.flatMap_print_inj (isNamed_tags h d) (isNamed_tags h' d'), tags, tags,
    Stroke.flatMap_tags_inj (hfour hread) (hfour hread') hne, ← hstart,
    ← hread.components_eq_iff hread', stroke, stroke, Stroke.mk.injEq]
  tauto

/-- An exact duration that is not below zero is shown as the difference of the times. -/
theorem IsRead.negative_eq_false (hread : h.IsRead text) (hexact : h.timing.IsExact)
    (hd : h.timing.duration? = some d) (hzero : d.isBelowZero = false) : d.negative = false := by
  have hnegative := Timing.negative_duration? hd hread.stop
  have hbelow := Decimal.isBelowZero_iff (d := d)
  rw [hexact.value hd, sub_neg, hzero] at hbelow
  rw [← Bool.not_eq_true, hnegative]
  simpa using hbelow

/-- If the durations are exact, the end is determined as well. -/
theorem IsRead.markup_inj_of_isExact (hread : h.IsRead text) (hread' : h'.IsRead text')
    (hexact : h.timing.IsExact) (hexact' : h'.timing.IsExact)
    (hd : h.timing.duration? = some d) (hd' : h'.timing.duration? = some d')
    (hzero : d.isBelowZero = false) (hzero' : d'.isBelowZero = false) :
    h.markup d = h'.markup d' ↔ text.words.take 4 = text'.words.take 4 ∧
      h.timing.start.value = h'.timing.start.value ∧
      h.timing.stop.value = h'.timing.stop.value := by
  have hduration : formatSeconds d = formatSeconds d' ↔
      h.timing.stop.value - h.timing.start.value =
        h'.timing.stop.value - h'.timing.start.value := by
    rw [formatSeconds_inj, hread.negative_eq_false hexact hd hzero,
      hread'.negative_eq_false hexact' hd' hzero', hexact.value hd, hexact'.value hd',
      eq_self_iff_true, true_and]
  rw [hread.markup_inj hread', hduration]
  refine and_congr_right fun _ => and_congr_right fun hstart => ?_
  rw [hstart, sub_left_inj]

/-- Markup that shows a highlight: in print it is the tags of the outlines, it has the marks of as
many outlines and no others, and the tags are read back with what stands in the tokens of a text. -/
structure IsReadable (h : Highlight) (text m : Text) (d : Decimal) : Prop where
  tokens : ∃ rects, text.words.take 4 = [rects, h.color, h.thickness, h.opacities] ∧
    h.rects.map Rect.source = rects.splitOn (CodePoint.ofChar ';')
  printed : m = (h.tags d).flatMap Tag.print
  marks : m.filter CodePoint.isMark = h.rects.flatMap fun _ => bareOutline.filter CodePoint.isMark
  apostrophe : CodePoint.ofChar '\'' ∉ m
  read : Tag.readTags? m = some (h.tags d)

theorem isReadable (hparse : Highlight.parse text = .ok h) (d : Decimal) :
    h.IsReadable text (h.markup d) d := by
  have hread := isRead hparse
  constructor
  case tokens => exact hread.tokens
  case printed => exact hread.markup_eq d
  case marks => exact hread.marks_markup d
  case apostrophe => exact hread.apostrophe_not_mem d
  case read => exact hread.readTags?_markup d

/-- Two texts have the same markup exactly if their tokens, their starts and their ends as far as
they are shown are the same. -/
structure IsToldFrom (h h' : Highlight) (text text' m m' : Text) (d d' : Decimal) : Prop where
  shown : m = m' ↔ text.words.take 4 = text'.words.take 4 ∧
    h.timing.start.value = h'.timing.start.value ∧ formatSeconds d = formatSeconds d'
  exact : h.timing.IsExact → h'.timing.IsExact →
    (m = m' ↔ text.words.take 4 = text'.words.take 4 ∧
      h.timing.start.value = h'.timing.start.value ∧ h.timing.stop.value = h'.timing.stop.value)

end Highlight

end Directive

/-! ### Compiled highlights -/

/-- **Compiled highlights are faithful**: what a highlight compiles to reads as what is written, and
two highlights compile to the same exactly if their tokens are identical and their times are equal,
provided that their durations are exact. -/
theorem compileHighlight_faithful {text flow m text' flow' m' : Text}
    (hm : compileHighlight text flow = .ok m) (hm' : compileHighlight text' flow' = .ok m') :
    ∃ h h' d d', Highlight.parse text = .ok h ∧ Highlight.parse text' = .ok h' ∧
      h.timing.duration? = some d ∧ h'.timing.duration? = some d' ∧
      h.IsReadable text m d ∧ h'.IsReadable text' m' d' ∧ h.IsToldFrom h' text text' m m' d d' := by
  obtain ⟨h, d, hparse, _, hd, hzero, rfl⟩ := compileHighlight_eq_ok.mp hm
  obtain ⟨h', d', hparse', _, hd', hzero', rfl⟩ := compileHighlight_eq_ok.mp hm'
  have hread := Highlight.isRead hparse
  have hread' := Highlight.isRead hparse'
  exact ⟨h, h', d, d', hparse, hparse', hd, hd', Highlight.isReadable hparse d,
    Highlight.isReadable hparse' d', hread.markup_inj hread',
    fun he he' => hread.markup_inj_of_isExact hread' he he' hd hd' hzero hzero'⟩

/-- The outlines of `spotlight`, with other blanks and with times that are spelled differently. -/
def respelledSpotlight : Text := "\t1,1,2,2;.5,0.,3,3 <\"&'>  2.50 0,1;.5\n1.0 3."

theorem compileHighlight_faithful_spotlight :
    ∃ m m', ∃ h h' : Highlight, ∃ d d', compileHighlight spotlight "a__1" = .ok m ∧
      compileHighlight respelledSpotlight "b__2" = .ok m' ∧
      h.IsReadable spotlight m d ∧ h'.IsReadable respelledSpotlight m' d' ∧
      h.timing.IsExact ∧ h'.timing.IsExact ∧
      (m = m' ↔ spotlight.words.take 4 = respelledSpotlight.words.take 4 ∧
        h.timing.start.value = h'.timing.start.value ∧
        h.timing.stop.value = h'.timing.stop.value) := by
  have hshort : ∀ word ∈ spotlight.words, word.length ≤ shortLength := by decide
  have hshort' : ∀ word ∈ respelledSpotlight.words, word.length ≤ shortLength := by decide
  obtain ⟨m, hm⟩ := exists_of_isOk (x := compileHighlight spotlight "a__1") (by decide +kernel)
  obtain ⟨m', hm'⟩ :=
    exists_of_isOk (x := compileHighlight respelledSpotlight "b__2") (by decide +kernel)
  obtain ⟨h, h', d, d', hparse, hparse', _, _, hread, hread', htold⟩ :=
    compileHighlight_faithful hm hm'
  have hexact := Highlight.isExact_of_short hparse hshort
  have hexact' := Highlight.isExact_of_short hparse' hshort'
  exact ⟨m, m', h, h', d, d', hm, hm', hread, hread', hexact, hexact', htold.exact hexact hexact'⟩

/-! ### Faint highlights -/

section Faint

variable {n v : Nat} {digit : Char}

/-- An outline from zero to the digit, with `n` zeros before both. -/
def faintHighlight (n : Nat) (digit : Char) : Text :=
  Text.ofString "0,0,1,1" ++ CodePoint.ofChar ' ' :: (Text.ofString "red" ++ CodePoint.ofChar ' ' ::
    (Text.ofString "1" ++ CodePoint.ofChar ' ' :: (Text.ofString "0" ++ CodePoint.ofChar ' ' ::
      (tiny n '0' ++ CodePoint.ofChar ' ' :: tiny n digit))))

theorem words_faintHighlight (n : Nat) (hd : (CodePoint.ofChar digit).isBlank = false) :
    (faintHighlight n digit).words = [Text.ofString "0,0,1,1", Text.ofString "red",
      Text.ofString "1", Text.ofString "0", tiny n '0', tiny n digit] := by
  have hblank : (CodePoint.ofChar ' ').isBlank = true := by decide
  have hfixed : ∀ t ∈ (["0,0,1,1", "red", "1", "0"] : List Text), IsToken t := by
    simp only [IsToken]
    decide
  simp only [List.forall_mem_cons] at hfixed
  obtain ⟨hrect, hcolor, hone, hzero, _⟩ := hfixed
  rw [faintHighlight, words_append hrect hblank, words_append hcolor hblank,
    words_append hone hblank, words_append hzero hblank,
    words_append (isToken_tiny n (by decide)) hblank, words_of_isToken (isToken_tiny n hd)]

/-- It is read as an outline in faint time. -/
theorem exists_parse_faintHighlight (n : Nat) (hv : (CodePoint.ofChar digit).digit? = some v)
    (hd : (CodePoint.ofChar digit).isBlank = false) :
    ∃ h, Highlight.parse (faintHighlight n digit) = .ok h ∧ h.color = "red" ∧
      h.timing = faintTiming n v := by
  obtain ⟨rects, hrects⟩ : ∃ rects, Rect.parseList (Text.ofString "0,0,1,1") = .ok rects := ⟨_, rfl⟩
  have hthickness : parseThickness (Text.ofString "1") = .ok (Text.ofString "1") := rfl
  have hopacities : parseOpacities (Text.ofString "0") = .ok (Text.ofString "0") := rfl
  have hzero : (CodePoint.ofChar '0').digit? = some 0 := by decide
  have htiming : Timing.parse (tiny n '0') (tiny n digit) = .ok (faintTiming n v) :=
    bind_eq_ok.mpr ⟨_, inToken_eq_ok.mpr (readNumber_tiny n hzero),
      bind_eq_ok.mpr ⟨_, inToken_eq_ok.mpr (readNumber_tiny n hv), rfl⟩⟩
  refine ⟨⟨rects, "red", "1", "0", faintTiming n v⟩, ?_, rfl, rfl⟩
  rw [Highlight.parse, words_faintHighlight n hd]
  exact bind_eq_ok.mpr ⟨_, hrects, bind_eq_ok.mpr ⟨_, hthickness,
    bind_eq_ok.mpr ⟨_, hopacities, bind_eq_ok.mpr ⟨_, htiming, rfl⟩⟩⟩⟩

/-- It compiles, and is shown for no time. -/
theorem exists_compile_faintHighlight (flow : Text) (hn : 1000026 ≤ n)
    (hv : (CodePoint.ofChar digit).digit? = some v) (hdigit : v ≤ 5)
    (hd : (CodePoint.ofChar digit).isBlank = false) :
    ∃ h d, compileHighlight (faintHighlight n digit) flow = .ok (h.markup d) ∧
      Highlight.parse (faintHighlight n digit) = .ok h ∧ h.timing = faintTiming n v ∧
      d.value = 0 ∧ d.negative = false := by
  obtain ⟨h, hparse, hcolor, htiming⟩ := exists_parse_faintHighlight n hv hd
  obtain ⟨d, hduration, hvalue, hnegative⟩ := exists_duration?_faintTiming hn hdigit
  have hunicode : h.color.any CodePoint.isSurrogate = false := by rw [hcolor]; decide
  have hzero : d.isBelowZero = false := by rw [Decimal.isBelowZero, hnegative, Bool.false_and]
  exact ⟨h, d, compileHighlight_eq_ok.mpr ⟨h, d, hparse, hunicode, htiming ▸ hduration, hzero, rfl⟩,
    hparse, htiming, hvalue, hnegative⟩

/-- The end has no part in the markup. -/
theorem exists_markup_faintHighlight (flow flow' : Text) (hn : 1000026 ≤ n) :
    ∃ m h h', compileHighlight (faintHighlight n '0') flow = .ok m ∧
      compileHighlight (faintHighlight n '1') flow' = .ok m ∧
      Highlight.parse (faintHighlight n '0') = .ok h ∧
      Highlight.parse (faintHighlight n '1') = .ok h' ∧
      h.timing = faintTiming n 0 ∧ h'.timing = faintTiming n 1 := by
  have hzero : (CodePoint.ofChar '0').digit? = some 0 := by decide
  have hone : (CodePoint.ofChar '1').digit? = some 1 := by decide
  obtain ⟨h, d, hm, hparse, htiming, hvalue, hnegative⟩ :=
    exists_compile_faintHighlight flow hn hzero (by decide) (by decide)
  obtain ⟨h', d', hm', hparse', htiming', hvalue', hnegative'⟩ :=
    exists_compile_faintHighlight flow' hn hone (by decide) (by decide)
  have hshown : formatSeconds d = formatSeconds d' :=
    formatSeconds_inj.mpr ⟨by rw [hnegative, hnegative'], by rw [hvalue, hvalue']⟩
  have htokens : (faintHighlight n '0').words.take 4 = (faintHighlight n '1').words.take 4 := by
    rw [words_faintHighlight n (by decide), words_faintHighlight n (by decide)]
    rfl
  have hstart : h.timing.start.value = h'.timing.start.value := by rw [htiming, htiming']; rfl
  have hsame : h.markup d = h'.markup d' :=
    ((Highlight.isRead hparse).markup_inj (Highlight.isRead hparse')).mpr ⟨htokens, hstart, hshown⟩
  exact ⟨_, h, h', hm, hsame ▸ hm', hparse, hparse', htiming, htiming'⟩

/-- Two highlights that end at different times have the same markup. -/
theorem faintHighlight_not_faithful :
    ∃ m h h', compileHighlight (faintHighlight 1000026 '0') "a__1" = .ok m ∧
      compileHighlight (faintHighlight 1000026 '1') "b__2" = .ok m ∧
      Highlight.parse (faintHighlight 1000026 '0') = .ok h ∧
      Highlight.parse (faintHighlight 1000026 '1') = .ok h' ∧
      h.timing.stop.value ≠ h'.timing.stop.value := by
  obtain ⟨m, h, h', hm, hm', hparse, hparse', htiming, htiming'⟩ :=
    exists_markup_faintHighlight "a__1" "b__2" (le_refl 1000026)
  refine ⟨m, h, h', hm, hm', hparse, hparse', ?_⟩
  have hzero : (faintTiming 1000026 0).stop.value = 0 := Decimal.value_eq_zero.mpr rfl
  have hone : (faintTiming 1000026 1).stop.value ≠ 0 := by
    rw [Ne, Decimal.value_eq_zero]
    exact one_ne_zero
  rw [htiming, htiming', hzero]
  exact hone.symm

end Faint

end SvgDeck
