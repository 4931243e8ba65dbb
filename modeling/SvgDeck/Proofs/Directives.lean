/-
Directives are decided by their grammar.

A directive that is not in the grammar is malformed, one that ends before it starts has a negative
duration, and all others compile to markup that repeats what is written (`Decided`).  What decides
is the exact value of the times, except where these leave the range of exponents: a duration of
too many digits before the point is no duration, and one that is too small is rounded to zero
(`Exceeds`).

* `compileFocus_grammar` — when a focus is decided by the grammar, and what it compiles to;
* `compileHighlight_grammar` — the same for a highlight, whose color must have a UTF-8 form;
* `decided_focus_of_short`, `decided_highlight_of_short` — tokens of up to a million digits never
  leave the range.
-/
import SvgDeck.Proofs.Duration
import SvgDeck.Proofs.Unicode
import SvgDeck.Proofs.Verdict

namespace SvgDeck

open Directive

/-! ### Durations -/

namespace Directive.Timing

variable {t : Timing} {d : Decimal}

/-- The times are out of order, and so little apart that the duration is rounded to zero. -/
def Blurs (t : Timing) : Prop :=
  t.stop.value < t.start.value ∧ 2 * |t.stop.value - t.start.value| ≤
    10 ^ Decimal.lastExponent (Decimal.differencePrecision t.stop t.start)

/-- The duration leaves the range of exponents at either end. -/
def Exceeds (t : Timing) : Prop := Overflows t ∨ t.Blurs

theorem isBelowZero_duration? (h : t.duration? = some d) :
    d.isBelowZero = true ↔ t.stop.value < t.start.value ∧ ¬ t.Blurs := by
  rw [Decimal.isBelowZero_minus? (duration?_eq_some.mp h).2, Blurs]
  refine and_congr_right fun hlt => ?_
  rw [and_iff_right hlt, not_le]

/-- An exact duration has the sign of the difference, and so does not blur. -/
theorem IsExact.not_exceeds (h : t.IsExact) : ¬ t.Exceeds := by
  obtain ⟨d, hd, hvalue⟩ := exists_duration?_iff.mpr h
  rintro (hoverflows | hblurs)
  · cases hoverflows.symm.trans hd
  · have hbelow : d.isBelowZero = true := by
      rw [Decimal.isBelowZero_iff, hvalue]
      exact sub_neg.mpr hblurs.1
    exact ((isBelowZero_duration? hd).mp hbelow).2 hblurs

end Directive.Timing

/-! ### Decisions -/

/-- The result is a report of the condition about the subject. -/
def IsReport (x : Except Failure Text) (condition : Condition) (subject : Text) : Prop :=
  ∃ cause, x = .error (.reported cause) ∧ cause.condition = condition ∧ cause.subject = subject

/-- The grammar decides what becomes of a directive of a flow; `directive a b` says that the text
is in the grammar, and in time from `a` to `b`. -/
structure Decided (directive : ℚ → ℚ → Prop) (malformed : Condition) (flow : Text)
    (x : Except Failure Text) : Prop where
  malformed : IsReport x malformed flow ↔ ¬ ∃ a b, directive a b
  negative : IsReport x .negativeDuration flow ↔ ∃ a b, directive a b ∧ b < a
  compiles : (∃ m, x = .ok m) ↔ ∃ a b, directive a b ∧ a ≤ b

section Decided

variable {directive : ℚ → ℚ → Prop} {condition : Condition} {flow : Text}
  {x : Except Failure Text} {timing : Timing} {kind : DirectiveKind} {markup : Decimal → Text}

theorem isReport_error {cause : Cause} {subject : Text} :
    IsReport (.error (.reported cause)) condition subject ↔
      cause.condition = condition ∧ cause.subject = subject := by
  simp [IsReport]

theorem not_isReport_ok {m subject : Text} : ¬ IsReport (.ok m) condition subject := by
  rintro ⟨_, h, _⟩
  cases h

/-- Whatever is in the grammar compiles or is reported, if the grammar decides. -/
theorem not_decided_of_escapes {f : Failure} (hx : x = .error f) (hf : ∀ cause, f ≠ .reported cause)
    {a b : ℚ} (h : directive a b) : ¬ Decided directive condition flow x := by
  subst hx
  intro hdecided
  rcases lt_or_ge b a with hlt | hle
  · obtain ⟨cause, hc, _⟩ := hdecided.negative.mpr ⟨a, b, h, hlt⟩
    exact hf cause (Except.error.inj hc)
  · obtain ⟨m, hm⟩ := hdecided.compiles.mpr ⟨a, b, h, hle⟩
    cases hm

/-- A directive out of the grammar is malformed. -/
theorem decided_of_malformed {cause : Cause} (h : ∀ a b, ¬ directive a b)
    (hcondition : cause.condition = condition) (hne : condition ≠ .negativeDuration)
    (hsubject : cause.subject = flow) :
    Decided directive condition flow (.error (.reported cause)) := by
  constructor
  case malformed =>
    rw [isReport_error]
    exact iff_of_true ⟨hcondition, hsubject⟩ fun ⟨a, b, hab⟩ => h a b hab
  case negative =>
    rw [isReport_error]
    exact iff_of_false (fun hc => hne (hcondition.symm.trans hc.1)) fun ⟨a, b, hab, _⟩ => h a b hab
  case compiles => exact iff_of_false (by simp) fun ⟨a, b, hab, _⟩ => h a b hab

/-- A directive in the grammar is decided by its times, if their difference is in range. -/
theorem decided_checkDuration_iff
    (h : ∀ a b, directive a b ↔ timing.start.value = a ∧ timing.stop.value = b)
    (hne : condition ≠ .negativeDuration) :
    Decided directive condition flow ((checkDuration kind flow timing).map markup) ↔
      ¬ timing.Exceeds := by
  have hin : directive timing.start.value timing.stop.value := (h _ _).mpr ⟨rfl, rfl⟩
  have hnegative : (∃ a b, directive a b ∧ b < a) ↔ timing.stop.value < timing.start.value := by
    simp [h]
  have hforward : (∃ a b, directive a b ∧ a ≤ b) ↔ timing.start.value ≤ timing.stop.value := by
    simp [h]
  cases hd : timing.duration? with
  | none =>
    rw [checkDuration_of_overflows hd]
    have hfailure : ∀ cause, durationFailure timing ≠ .reported cause := fun cause => by
      rcases durationFailure_eq_or timing with h | h <;> simp [h]
    exact iff_of_false (not_decided_of_escapes rfl hfailure hin) fun hex => hex (Or.inl hd)
  | some d =>
    have hbelow := Timing.isBelowZero_duration? hd
    have hexceeds : timing.Exceeds ↔ timing.Blurs := by simp [Timing.Exceeds, Overflows, hd]
    rw [hexceeds]
    by_cases hzero : d.isBelowZero = true
    · have herror : checkDuration kind flow timing =
          .error (.reported (.negativeDuration kind flow timing)) :=
        checkDuration_eq_error.mpr (Or.inr ⟨⟨d, hd, hzero⟩, rfl⟩)
      obtain ⟨hlt, hblurs⟩ := hbelow.mp hzero
      rw [herror]
      refine iff_of_true ?_ hblurs
      constructor
      case malformed =>
        exact iff_of_false (fun hc => hne (isReport_error.mp hc).1.symm) fun hc => hc ⟨_, _, hin⟩
      case negative => exact iff_of_true (isReport_error.mpr ⟨rfl, rfl⟩) (hnegative.mpr hlt)
      case compiles => exact iff_of_false (by simp [Except.map]) fun hc => (hforward.mp hc).not_gt hlt
    · have hok : checkDuration kind flow timing = .ok d :=
        checkDuration_eq_ok.mpr ⟨hd, by simpa using hzero⟩
      rw [hok]
      constructor
      · -- What compiles has no negative duration, so nothing was rounded to zero.
        intro hdecided hblurs
        exact not_isReport_ok (hdecided.negative.mpr (hnegative.mpr hblurs.1))
      · intro hblurs
        have hle : timing.start.value ≤ timing.stop.value :=
          not_lt.mp fun hlt => hzero (hbelow.mpr ⟨hlt, hblurs⟩)
        constructor
        case malformed => exact iff_of_false not_isReport_ok fun hc => hc ⟨_, _, hin⟩
        case negative => exact iff_of_false not_isReport_ok fun hc => hle.not_gt (hnegative.mp hc)
        case compiles => exact iff_of_true ⟨_, rfl⟩ (hforward.mpr hle)

end Decided

/-! ### Reading -/

section Reading

variable {text flow : Text} {a b : ℚ}

theorem isFocus_iff {f : Focus} (h : Focus.parse text = .ok f) :
    IsFocus text a b ↔ f.timing.start.value = a ∧ f.timing.stop.value = b := by
  constructor
  · intro hab
    obtain ⟨f', hf', hvalues⟩ := Focus.exists_parse hab
    cases h.symm.trans hf'
    exact hvalues
  · rintro ⟨rfl, rfl⟩
    obtain ⟨rects, start, stop, hwords, hrects, htiming⟩ := Focus.parse_eq_ok h
    obtain ⟨hstart, hstop⟩ := Timing.parse_eq_ok htiming
    exact ⟨rects, start, stop, hwords, (Rect.parseList_eq_ok hrects).1, hstart, hstop⟩

theorem isHighlight_iff {h : Highlight} (hparse : Highlight.parse text = .ok h) :
    IsHighlight text a b ↔ h.timing.start.value = a ∧ h.timing.stop.value = b := by
  constructor
  · intro hab
    obtain ⟨h', hh', hvalues⟩ := Highlight.exists_parse hab
    cases hparse.symm.trans hh'
    exact hvalues
  · rintro ⟨rfl, rfl⟩
    obtain ⟨rects, start, stop, hwords, hrects, hthickness, hopacities, htiming⟩ :=
      Highlight.parse_eq_ok hparse
    obtain ⟨hstart, hstop⟩ := Timing.parse_eq_ok htiming
    have hcolor : IsToken h.color := isToken_of_mem_words (by rw [hwords]; simp)
    exact ⟨rects, h.color, h.thickness, h.opacities, start, stop, hwords,
      (Rect.parseList_eq_ok hrects).1, hcolor, hthickness, hopacities, hstart, hstop⟩

theorem decided_focus_iff (text flow : Text) :
    Decided (IsFocus text) .malformedFocus flow (compileFocus text flow) ↔
      ¬ ∃ focus, Focus.parse text = .ok focus ∧ focus.timing.Exceeds := by
  rw [compileFocus]
  cases hparse : Focus.parse text with
  | error fault =>
    have hnone : ∀ a b, ¬ IsFocus text a b := by
      intro a b hab
      obtain ⟨f, hf, _⟩ := Focus.exists_parse hab
      cases hparse.symm.trans hf
    exact iff_of_true (decided_of_malformed hnone rfl (by simp) rfl) (by simp)
  | ok focus =>
    simp only [Except.ok.injEq, exists_eq_left']
    exact decided_checkDuration_iff (fun a b => isFocus_iff hparse) (by simp)

theorem decided_highlight_iff (text flow : Text) :
    Decided (IsHighlight text) .malformedHighlight flow (compileHighlight text flow) ↔
      ¬ ∃ highlight, Highlight.parse text = .ok highlight ∧
        (¬ highlight.color.IsUnicode ∨ highlight.timing.Exceeds) := by
  rw [compileHighlight]
  cases hparse : Highlight.parse text with
  | error fault =>
    have hnone : ∀ a b, ¬ IsHighlight text a b := by
      intro a b hab
      obtain ⟨h, hh, _⟩ := Highlight.exists_parse hab
      cases hparse.symm.trans hh
    exact iff_of_true (decided_of_malformed hnone rfl (by simp) rfl) (by simp)
  | ok highlight =>
    simp only [Except.ok.injEq, exists_eq_left']
    rw [← Text.any_isSurrogate_eq_false, Bool.not_eq_false]
    by_cases hcolor : highlight.color.any CodePoint.isSurrogate = true
    · rw [if_pos hcolor]
      have hin := (isHighlight_iff hparse).mpr ⟨rfl, rfl⟩
      exact iff_of_false (not_decided_of_escapes rfl (by simp) hin) fun h => h (Or.inl hcolor)
    · rw [if_neg hcolor, or_iff_right hcolor]
      exact decided_checkDuration_iff (fun a b => isHighlight_iff hparse) (by simp)

end Reading

/-! ### Markup -/

namespace Directive

/-- The rectangle has four components, and they are its numbers as they are written. -/
def Rect.IsWritten (r : Rect) : Prop :=
  ∃ x y w h, r.source.splitOn (CodePoint.ofChar ',') = [x, y, w, h] ∧
    Writes x r.x.value ∧ Writes y r.y.value ∧ Writes w r.w.value ∧ Writes h r.h.value

theorem RectText.Writes.isWritten {t : RectText} {r : Rect} (h : t.Writes r) : r.IsWritten :=
  ⟨t.x, t.y, t.w, t.h, h.components, h.x, h.y, h.w, h.h⟩

theorem Rect.isWritten_of_parseList {token : Text} {rects : List Rect}
    (h : Rect.parseList token = .ok rects) : ∀ r ∈ rects, r.IsWritten := by
  obtain ⟨_, _, hwritten⟩ := parseList_eq_ok h
  intro r hr
  obtain ⟨t, ht⟩ := hwritten r hr
  exact ht.isWritten

/-- Blanks in the place of commas. -/
def commasToBlanks (t : Text) : Text :=
  t.map fun c => if c = CodePoint.ofChar ',' then CodePoint.ofChar ' ' else c

/-- Cutting at one separator and joining with another puts one in the place of the other. -/
theorem join_splitOn (a b : CodePoint) (t : Text) :
    Text.join [b] (t.splitOn a) = t.map fun c => if c = a then b else c := by
  induction t with
  | nil => rfl
  | cons c t ih =>
    obtain ⟨first, pieces, hpieces⟩ := List.exists_cons_of_ne_nil (List.splitOn_ne_nil a t)
    rw [List.splitOn_cons_eq_if_modifyHead, List.map_cons, ← ih, hpieces]
    by_cases hc : c = a
    · simp [hc, Text.join, List.intercalate]
    · cases pieces <;> simp [hc, Text.join, List.intercalate]

theorem map_join {f : CodePoint → CodePoint} {c : CodePoint} (hc : f c = c) (parts : List Text) :
    (Text.join [c] parts).map f = Text.join [c] (parts.map (List.map f)) := by
  induction parts with
  | nil => rfl
  | cons part parts ih =>
    cases parts with
    | nil => simp [Text.join]
    | cons next parts =>
      simp only [Text.join, List.map_cons, List.intercalate_cons_cons, List.map_append] at ih ⊢
      rw [ih, hc, List.map_nil]

theorem join_semicolon_splitOn (token : Text) :
    Text.join ";" (token.splitOn (CodePoint.ofChar ';')) = token :=
  List.intercalate_splitOn (CodePoint.ofChar ';')

/-- The view boxes are those of the token, which is not read for this. -/
theorem join_viewBox {token : Text} {rects : List Rect}
    (h : rects.map Rect.source = token.splitOn (CodePoint.ofChar ';')) :
    Text.join ";" (rects.map Rect.viewBox) = commasToBlanks token := by
  have hview : rects.map Rect.viewBox = (rects.map Rect.source).map commasToBlanks := by
    rw [List.map_map]
    exact List.map_congr_left fun r _ => join_splitOn _ _ r.source
  have hjoin : commasToBlanks (Text.join ";" (token.splitOn (CodePoint.ofChar ';'))) =
      Text.join ";" ((token.splitOn (CodePoint.ofChar ';')).map commasToBlanks) :=
    map_join (by decide) _
  rw [hview, h, ← hjoin, join_semicolon_splitOn]

/-- The outline of a rectangle with the components as they are given. -/
def rectElement (x y w h color thickness animation : Text) : Text :=
  "<rect x=\"" ++ x ++ "\" y=\"" ++ y ++ "\" width=\"" ++ w ++ "\" height=\"" ++ h ++
    "\" rx=\"10\" ry=\"10\" fill=\"transparent\" stroke=\"" ++ color.escapeMarkup ++
    "\" stroke-width=\"" ++ thickness ++ "\" stroke-opacity=\"0\">" ++ animation ++ "</rect>"

theorem outline_eq (highlight : Highlight) (animation : Text) {r : Rect} {x y w h : Text}
    (hr : r.source.splitOn (CodePoint.ofChar ',') = [x, y, w, h]) :
    highlight.outline animation r =
      rectElement x y w h highlight.color highlight.thickness animation := by
  simp [Highlight.outline, Rect.components, hr, rectElement, Highlight.cornerRadius, Text.ofString]

/-- A focus as it is written in the tokens of a text, and the markup that repeats it. -/
structure Focus.IsCopied (f : Focus) (text token m : Text) (d : Decimal) : Prop where
  words : ∃ start stop, text.words = [token, start, stop] ∧
    Writes start f.timing.start.value ∧ Writes stop f.timing.stop.value
  pieces : f.keyframes.map Rect.source = token.splitOn (CodePoint.ofChar ';')
  joined : Text.join ";" (f.keyframes.map Rect.source) = token
  written : ∀ r ∈ f.keyframes, r.IsWritten
  duration : f.timing.duration? = some d
  markup : m = animate "viewBox" (commasToBlanks token) f.timing.start d

/-- A highlight as it is written in the tokens of a text, and the markup that repeats it: an
element for each rectangle, and the same animation in all of them. -/
structure Highlight.IsCopied (h : Highlight) (text token m : Text) (d : Decimal) : Prop where
  words : ∃ start stop, text.words = [token, h.color, h.thickness, h.opacities, start, stop] ∧
    Writes start h.timing.start.value ∧ Writes stop h.timing.stop.value
  pieces : h.rects.map Rect.source = token.splitOn (CodePoint.ofChar ';')
  joined : Text.join ";" (h.rects.map Rect.source) = token
  written : ∀ r ∈ h.rects, r.IsWritten
  duration : h.timing.duration? = some d
  markup : ∃ elements : List Text, m = elements.flatten ∧
    List.Forall₂ (fun source element => ∃ x y w height,
      source.splitOn (CodePoint.ofChar ',') = [x, y, w, height] ∧
        element = rectElement x y w height h.color h.thickness
          (animate "stroke-opacity" h.opacities h.timing.start d))
      (token.splitOn (CodePoint.ofChar ';')) elements

theorem Focus.isCopied {text : Text} {f : Focus} {d : Decimal} (hparse : Focus.parse text = .ok f)
    (hd : f.timing.duration? = some d) : ∃ rects, f.IsCopied text rects (f.markup d) d := by
  obtain ⟨rects, start, stop, hwords, hrects, htiming⟩ := Focus.parse_eq_ok hparse
  obtain ⟨_, hpieces, _⟩ := Rect.parseList_eq_ok hrects
  refine ⟨rects, ?_⟩
  constructor
  case words => exact ⟨start, stop, hwords, Timing.parse_eq_ok htiming⟩
  case pieces => exact hpieces
  case joined => rw [hpieces, join_semicolon_splitOn]
  case written => exact Rect.isWritten_of_parseList hrects
  case duration => exact hd
  case markup => rw [Focus.markup, join_viewBox hpieces]

theorem Highlight.isCopied {text : Text} {h : Highlight} {d : Decimal}
    (hparse : Highlight.parse text = .ok h) (hd : h.timing.duration? = some d) :
    ∃ rects, h.IsCopied text rects (h.markup d) d := by
  obtain ⟨rects, start, stop, hwords, hrects, _, _, htiming⟩ := Highlight.parse_eq_ok hparse
  obtain ⟨_, hpieces, _⟩ := Rect.parseList_eq_ok hrects
  have hwritten := Rect.isWritten_of_parseList hrects
  refine ⟨rects, ?_⟩
  constructor
  case words => exact ⟨start, stop, hwords, Timing.parse_eq_ok htiming⟩
  case pieces => exact hpieces
  case joined => rw [hpieces, join_semicolon_splitOn]
  case written => exact hwritten
  case duration => exact hd
  case markup =>
    refine ⟨h.rects.map (h.outline (animate "stroke-opacity" h.opacities h.timing.start d)),
      List.flatMap_def, ?_⟩
    rw [← hpieces, List.forall₂_map_left_iff, List.forall₂_map_right_iff, List.forall₂_same]
    intro r hr
    obtain ⟨x, y, w, height, hsource, _⟩ := hwritten r hr
    exact ⟨x, y, w, height, hsource, outline_eq h _ hsource⟩

end Directive

/-! ### Verdicts -/

/-- Directives with short tokens have exact durations. -/
theorem Directive.Focus.isExact_of_short {text : Text} {f : Focus} (hparse : Focus.parse text = .ok f)
    (h : ∀ word ∈ text.words, word.length ≤ shortLength) : f.timing.IsExact := by
  obtain ⟨rects, start, stop, hwords, _, htiming⟩ := Focus.parse_eq_ok hparse
  simp only [hwords, List.forall_mem_cons] at h
  exact Timing.isExact_of_short htiming h.2.1 h.2.2.1

theorem Directive.Highlight.isExact_of_short {text : Text} {highlight : Highlight}
    (hparse : Highlight.parse text = .ok highlight)
    (h : ∀ word ∈ text.words, word.length ≤ shortLength) : highlight.timing.IsExact := by
  obtain ⟨rects, start, stop, hwords, _, _, _, htiming⟩ := Highlight.parse_eq_ok hparse
  simp only [hwords, List.forall_mem_cons] at h
  obtain ⟨_, _, _, _, hstart, hstop, _⟩ := h
  exact Timing.isExact_of_short htiming hstart hstop

theorem decided_focus_of_short {text : Text} (flow : Text)
    (h : ∀ word ∈ text.words, word.length ≤ shortLength) :
    Decided (IsFocus text) .malformedFocus flow (compileFocus text flow) := by
  refine (decided_focus_iff text flow).mpr ?_
  rintro ⟨focus, hparse, hexceeds⟩
  exact (Focus.isExact_of_short hparse h).not_exceeds hexceeds

theorem decided_highlight_of_short {text : Text} (flow : Text)
    (h : ∀ word ∈ text.words, word.IsUnicode ∧ word.length ≤ shortLength) :
    Decided (IsHighlight text) .malformedHighlight flow (compileHighlight text flow) := by
  refine (decided_highlight_iff text flow).mpr ?_
  rintro ⟨highlight, hparse, hbad⟩
  rcases hbad with hbad | hexceeds
  · obtain ⟨rects, start, stop, hwords, _⟩ := Highlight.parse_eq_ok hparse
    simp only [hwords, List.forall_mem_cons] at h
    exact hbad h.2.1.1
  · exact (Highlight.isExact_of_short hparse fun word hword => (h word hword).2).not_exceeds hexceeds

/-- **A focus is decided by the grammar** exactly if its duration does not leave the range of
exponents; all that is reported is about the flow, and what compiles repeats what is written. -/
theorem compileFocus_grammar (text flow : Text) :
    (Decided (IsFocus text) .malformedFocus flow (compileFocus text flow) ↔
      ¬ ∃ focus, Focus.parse text = .ok focus ∧ focus.timing.Exceeds) ∧
    (∀ cause, compileFocus text flow = .error (.reported cause) → cause.subject = flow) ∧
    ∀ m, compileFocus text flow = .ok m →
      ∃ focus token d, Focus.parse text = .ok focus ∧ focus.IsCopied text token m d := by
  refine ⟨decided_focus_iff text flow, fun cause h => ?_, fun m h => ?_⟩
  · rcases compileFocus_fault h with ⟨c, hc, _, hsubject⟩ | ⟨hc, _⟩
    · cases hc
      exact hsubject
    · cases hc
  · obtain ⟨focus, d, hparse, hd, _, rfl⟩ := compileFocus_eq_ok.mp h
    obtain ⟨rects, hcopied⟩ := Focus.isCopied hparse hd
    exact ⟨focus, rects, d, hparse, hcopied⟩

/-- A zoom into a quarter of the canvas, with digits of two scripts. -/
def zoom : Text := "  0,0,100,100;25.,25,\u0665\u0660,.5\t0  1.50 "

theorem compileFocus_grammar_zoom :
    (∀ word ∈ zoom.words, word.length ≤ shortLength) ∧
      Decided (IsFocus zoom) .malformedFocus "a__1" (compileFocus zoom "a__1") ∧
      ∃ m, compileFocus zoom "a__1" = .ok m ∧
        ∃ focus token d, Focus.parse zoom = .ok focus ∧ focus.IsCopied zoom token m d := by
  have hshort : ∀ word ∈ zoom.words, word.length ≤ shortLength := by decide
  have hcompiles : (compileFocus zoom "a__1").isOk = true := by decide +kernel
  obtain ⟨m, hm⟩ := exists_of_isOk hcompiles
  obtain ⟨hiff, _, hcopied⟩ := compileFocus_grammar zoom "a__1"
  refine ⟨hshort, hiff.mpr ?_, m, hm, hcopied m hm⟩
  exact (decided_focus_iff zoom "a__1").mp (decided_focus_of_short "a__1" hshort)

/-! ### Tiny durations -/

section Tiny

variable {n : Nat} {flow : Text}

/-- A point, `n` zeros and a digit. -/
def tiny (n : Nat) (digit : Char) : Text :=
  CodePoint.ofChar '.' :: (List.replicate n (CodePoint.ofChar '0') ++ [CodePoint.ofChar digit])

/-- A focus that starts two units of the last digit after zero, and ends after one of them. -/
def backwardFocus (n : Nat) : Text :=
  Text.ofString "0,0,1,1" ++ CodePoint.ofChar ' ' :: (tiny n '2' ++ CodePoint.ofChar ' ' ::
    tiny n '1')

/-- The times of this focus. -/
def tinyTiming (n : Nat) : Timing :=
  ⟨⟨false, 2, -(n + 1 : Nat)⟩, ⟨false, 1, -(n + 1 : Nat)⟩⟩

theorem isDigits_tiny (n : Nat) {digit : Char} (hd : (CodePoint.ofChar digit).isDigit = true) :
    IsDigits (List.replicate n (CodePoint.ofChar '0') ++ [CodePoint.ofChar digit]) := by
  have hzero : (CodePoint.ofChar '0').isDigit = true := by decide
  refine List.forall_mem_append.mpr ⟨fun c hc => ?_, by simpa using hd⟩
  rw [List.eq_of_mem_replicate hc, hzero]

/-- The zeros have no part in the value. -/
theorem digitsValue_tiny (n : Nat) {digit : Char} {v : Nat}
    (hv : (CodePoint.ofChar digit).digit? = some v) : Text.digitsValue
      (List.replicate n (CodePoint.ofChar '0') ++ [CodePoint.ofChar digit]) = v := by
  have hdigit : IsDigits [CodePoint.ofChar digit] := by simp [IsDigits, CodePoint.isDigit, hv]
  exact (Text.digitsValue_zeros_append n hdigit).trans (Text.digitsValue_singleton hv)

theorem readNumber_tiny (n : Nat) {digit : Char} {v : Nat}
    (hv : (CodePoint.ofChar digit).digit? = some v) :
    readNumber 0 (tiny n digit) = .ok ⟨false, v, -(n + 1 : Nat)⟩ := by
  have hdigit : (CodePoint.ofChar digit).isDigit = true := by rw [CodePoint.isDigit, hv]; rfl
  have hsplit := split?_point (s := []) (by simp [IsDigits]) (isDigits_tiny n hdigit) (by simp)
    stops_nil.digit
  rw [List.nil_append, List.append_nil] at hsplit
  rw [readNumber, tiny, hsplit]
  simp [Decimal.ofNumeral, digitsValue_tiny n hv]

theorem isToken_tiny (n : Nat) {digit : Char} (hd : (CodePoint.ofChar digit).isBlank = false) :
    IsToken (tiny n digit) := by
  have hzero : (CodePoint.ofChar '0').isBlank = false := by decide
  have hpoint : (CodePoint.ofChar '.').isBlank = false := by decide
  refine ⟨by simp [tiny], ?_⟩
  rw [tiny, List.forall_mem_cons, List.forall_mem_append]
  refine ⟨hpoint, fun c hc => ?_, by simpa using hd⟩
  rw [List.eq_of_mem_replicate hc, hzero]

theorem words_backwardFocus (n : Nat) :
    (backwardFocus n).words = [Text.ofString "0,0,1,1", tiny n '2', tiny n '1'] := by
  have hblank : (CodePoint.ofChar ' ').isBlank = true := by decide
  have hrect : IsToken (Text.ofString "0,0,1,1") := ⟨by decide, by decide⟩
  rw [backwardFocus, words_append hrect hblank, words_append (isToken_tiny n (by decide)) hblank,
    words_of_isToken (isToken_tiny n (by decide))]

theorem parse_backwardFocus (n : Nat) :
    ∃ focus, Focus.parse (backwardFocus n) = .ok focus ∧ focus.timing = tinyTiming n := by
  obtain ⟨rects, hrects⟩ : ∃ rects, Rect.parseList (Text.ofString "0,0,1,1") = .ok rects := ⟨_, rfl⟩
  have htwo : (CodePoint.ofChar '2').digit? = some 2 := by decide
  have hone : (CodePoint.ofChar '1').digit? = some 1 := by decide
  have htiming : Timing.parse (tiny n '2') (tiny n '1') = .ok (tinyTiming n) :=
    bind_eq_ok.mpr ⟨_, inToken_eq_ok.mpr (readNumber_tiny n htwo),
      bind_eq_ok.mpr ⟨_, inToken_eq_ok.mpr (readNumber_tiny n hone), rfl⟩⟩
  refine ⟨⟨rects, tinyTiming n⟩, ?_, rfl⟩
  rw [Focus.parse, words_backwardFocus]
  exact bind_eq_ok.mpr ⟨_, hrects, bind_eq_ok.mpr ⟨_, htiming, rfl⟩⟩

/-- What is left of the duration is less than half of what can be its last digit. -/
theorem blurs_tinyTiming (hn : 1000026 ≤ n) : (tinyTiming n).Blurs := by
  have hpos := Decimal.ten_zpow_pos (-(n + 1 : Nat))
  have hstart : (tinyTiming n).start.value = 2 * 10 ^ (-(n + 1 : Nat) : Int) := by
    simp [tinyTiming, Decimal.value]
  have hstop : (tinyTiming n).stop.value = 10 ^ (-(n + 1 : Nat) : Int) := by
    simp [tinyTiming, Decimal.value]
  have hlast : Decimal.lastExponent
      (Decimal.differencePrecision (tinyTiming n).stop (tinyTiming n).start) = -1000026 := by
    have htwo : (Text.ofNat 2).length = 1 := by decide
    have hone : (Text.ofNat 1).length = 1 := by decide
    simp only [Decimal.lastExponent, Decimal.differencePrecision, Decimal.adjusted, Decimal.digits,
      tinyTiming, htwo, hone, Decimal.exponentLimit]
    omega
  rw [Timing.Blurs, hlast, hstart, hstop]
  refine ⟨by linarith, ?_⟩
  have hdiff : (10 : ℚ) ^ (-(n + 1 : Nat) : Int) - 2 * 10 ^ (-(n + 1 : Nat) : Int) =
      -10 ^ (-(n + 1 : Nat) : Int) := by ring
  rw [hdiff, abs_neg, abs_of_pos hpos]
  calc (2 : ℚ) * 10 ^ (-(n + 1 : Nat) : Int) ≤ 10 * 10 ^ (-(n + 1 : Nat) : Int) := by linarith
    _ = 10 ^ (1 + -(n + 1 : Nat) : Int) := by rw [zpow_add₀ (by norm_num), zpow_one]
    _ ≤ 10 ^ (-1000026 : Int) := zpow_le_zpow_right₀ (by norm_num) (by omega)

/-- The focus ends before it starts, which is not noticed. -/
theorem backwardFocus_not_decided :
    ¬ Decided (IsFocus (backwardFocus 1000026)) .malformedFocus "a__1"
      (compileFocus (backwardFocus 1000026) "a__1") := by
  obtain ⟨focus, hparse, htiming⟩ := parse_backwardFocus 1000026
  rw [decided_focus_iff, not_not]
  exact ⟨focus, hparse, Or.inr (htiming ▸ blurs_tinyTiming le_rfl)⟩

end Tiny

/-- **A highlight is decided by the grammar** exactly if its color has a UTF-8 form and its duration
does not leave the range of exponents; all that is reported is about the flow, and what compiles
repeats what is written. -/
theorem compileHighlight_grammar (text flow : Text) :
    (Decided (IsHighlight text) .malformedHighlight flow (compileHighlight text flow) ↔
      ¬ ∃ highlight, Highlight.parse text = .ok highlight ∧
        (¬ highlight.color.IsUnicode ∨ highlight.timing.Exceeds)) ∧
    (∀ cause, compileHighlight text flow = .error (.reported cause) → cause.subject = flow) ∧
    ∀ m, compileHighlight text flow = .ok m →
      ∃ highlight token d, Highlight.parse text = .ok highlight ∧
        highlight.IsCopied text token m d := by
  refine ⟨decided_highlight_iff text flow, fun cause h => ?_, fun m h => ?_⟩
  · rcases compileHighlight_fault h with ⟨c, hc, _, hsubject⟩ | ⟨hc, _⟩
    · cases hc
      exact hsubject
    · cases hc
  · obtain ⟨highlight, d, hparse, _, hd, _, rfl⟩ := compileHighlight_eq_ok.mp h
    obtain ⟨rects, hcopied⟩ := Highlight.isCopied hparse hd
    exact ⟨highlight, rects, d, hparse, hcopied⟩

/-- Two outlines, with a color that is full of markup. -/
def spotlight : Text := "1,1,2,2;.5,0.,3,3 <\"&'> 2.50 0,1;.5 1 3"

theorem compileHighlight_grammar_spotlight :
    Decided (IsHighlight spotlight) .malformedHighlight "a__1"
        (compileHighlight spotlight "a__1") ∧
      ∃ m, compileHighlight spotlight "a__1" = .ok m ∧
        ∃ highlight token d, Highlight.parse spotlight = .ok highlight ∧
          highlight.IsCopied spotlight token m d := by
  have hwords : ∀ word ∈ spotlight.words,
      word.any CodePoint.isSurrogate = false ∧ word.length ≤ shortLength := by decide
  have hshort : ∀ word ∈ spotlight.words, word.IsUnicode ∧ word.length ≤ shortLength :=
    fun word hword => (hwords word hword).imp_left Text.any_isSurrogate_eq_false.mp
  have hcompiles : (compileHighlight spotlight "a__1").isOk = true := by decide +kernel
  obtain ⟨m, hm⟩ := exists_of_isOk hcompiles
  obtain ⟨hiff, _, hcopied⟩ := compileHighlight_grammar spotlight "a__1"
  refine ⟨hiff.mpr ?_, m, hm, hcopied m hm⟩
  exact (decided_highlight_iff spotlight "a__1").mp (decided_highlight_of_short "a__1" hshort)

/-- A highlight with half of a character as its color. -/
def brokenHighlight : Text :=
  Text.ofString "0,0,1,1 " ++ ⟨0xD800, by decide⟩ :: Text.ofString " 1 0 0 1"

/-- The color is in the grammar, and the highlight neither compiles nor is it reported. -/
theorem brokenHighlight_not_decided :
    ¬ Decided (IsHighlight brokenHighlight) .malformedHighlight "a__1"
      (compileHighlight brokenHighlight "a__1") := by
  have hbroken : (Highlight.parse brokenHighlight).toOption.map
      (fun h => h.color.any CodePoint.isSurrogate) = some true := by decide +kernel
  obtain ⟨highlight, hparse, hcolor⟩ := Option.map_eq_some_iff.mp hbroken
  rw [decided_highlight_iff, not_not]
  refine ⟨highlight, toOption_eq_some.mp hparse, Or.inl fun hu => ?_⟩
  rw [Text.any_isSurrogate_eq_false.mpr hu] at hcolor
  cases hcolor

end SvgDeck
