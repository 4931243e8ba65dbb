/-
Filling the template.

The template is the skeleton of a page in print: its fixed pieces hold no brace, and each slot is
the name of what fills it between braces.  So a placeholder is met exactly where a slot stands, and
what was put in for it is left behind and not gone over again.

* `substitute_print` — pieces in print are filled piece by piece, whatever fills them;
* `page_interleaves` — the page is the fixed pieces of the template with its contents between them.
-/
import SvgDeck.Page.Template
import SvgDeck.Proofs.Bundle

namespace SvgDeck

open Text

/-! ### Pieces in print -/

/-- The name of a slot in the template. -/
def Slot.name : Slot → Text
  | .title => "title"
  | .style => "style"
  | .bodyClasses => "body_class"
  | .fragments => "fragments"
  | .narration => "narration"
  | .mapping => "mapping"
  | .player => "player"

def Piece.print : Piece → Text
  | .fixed t => t
  | .slot s => placeholderStart ++ s.name ++ placeholderEnd

def Piece.slot? : Piece → Option Slot
  | .fixed _ => none
  | .slot s => some s

/-- The code points that names are made of are, as far as ASCII goes, letters, digits and the
underscore. -/
def IsWordClass (isWord : CodePoint → Bool) : Prop :=
  ∀ c : CodePoint, c.val < 0x80 →
    isWord c = (c.isAsciiAlphanumeric || c = CodePoint.ofChar '_')

section Substitution

variable {isWord : CodePoint → Bool} {values : List (Text × Text)} {name value s t : Text}

theorem placeholder?_eq_none {c : CodePoint} (h : c ≠ CodePoint.ofChar '\x7b') :
    placeholder? isWord (c :: t) = none := by
  have hstart : after? placeholderStart (c :: t) = none := by
    show (if CodePoint.ofChar '\x7b' = c then _ else none) = none
    rw [if_neg (Ne.symm h)]
  rw [placeholder?, hstart, Option.bind_none]

theorem placeholder?_append (hword : IsWordClass isWord) (hne : name ≠ [])
    (hname : ∀ c ∈ name, isWord c = true) :
    placeholder? isWord (placeholderStart ++ name ++ placeholderEnd ++ t) = some (name, t) := by
  have hbrace : isWord (CodePoint.ofChar '\x7d') = false := hword _ (by decide)
  have htake : (name ++ (placeholderEnd ++ t)).takeWhile isWord = name := by
    rw [List.takeWhile_append_of_pos hname]
    show name ++ (CodePoint.ofChar '\x7d' :: _).takeWhile isWord = name
    rw [List.takeWhile_cons_of_neg (by simp [hbrace]), List.append_nil]
  have hdrop : (name ++ (placeholderEnd ++ t)).dropWhile isWord = placeholderEnd ++ t := by
    rw [List.dropWhile_append_of_pos hname]
    show (CodePoint.ofChar '\x7d' :: _).dropWhile isWord = _
    rw [List.dropWhile_cons_of_neg (by simp [hbrace])]
    rfl
  rw [List.append_assoc, List.append_assoc, placeholder?, after?_append, Option.bind_some, htake,
    if_neg hne, hdrop, after?_append, Option.map_some]

/-- A text without braces is copied. -/
theorem substitute_append (h : CodePoint.ofChar '\x7b' ∉ s) :
    substitute isWord values (s ++ t) = (substitute isWord values t).map (s ++ ·) := by
  induction s with
  | nil =>
    rw [List.nil_append]
    cases substitute isWord values t <;> rfl
  | cons c s ih =>
    rw [List.mem_cons, not_or] at h
    have hnone : placeholder? isWord (c :: (s ++ t)) = none := placeholder?_eq_none (Ne.symm h.1)
    rw [List.cons_append, substitute]
    split
    · next hsome => rw [hnone] at hsome; cases hsome
    · rw [ih h.2]
      cases substitute isWord values t <;> rfl

/-- A placeholder gives way to its value. -/
theorem substitute_placeholder (hword : IsWordClass isWord) (hne : name ≠ [])
    (hname : ∀ c ∈ name, isWord c = true) (hvalue : values.lookup name = some value) :
    substitute isWord values (placeholderStart ++ name ++ placeholderEnd ++ t) =
      (substitute isWord values t).map (value ++ ·) := by
  have hplaceholder := placeholder?_append (t := t) hword hne hname
  obtain ⟨u, hu⟩ : ∃ u, placeholderStart ++ name ++ placeholderEnd ++ t =
      CodePoint.ofChar '\x7b' :: u := ⟨_, rfl⟩
  rw [hu] at hplaceholder ⊢
  rw [substitute]
  split
  · next n rest hsome =>
    rw [hplaceholder] at hsome
    cases hsome
    rw [hvalue]
  · next hnone =>
    rw [hplaceholder] at hnone
    cases hnone

end Substitution

/-! ### Filling pieces -/

section Pieces

variable {isWord : CodePoint → Bool} {values : List (Text × Text)} {fill : Slot → Text}
  {pieces : List Piece}

theorem name_ne_nil (s : Slot) : s.name ≠ [] := by
  cases s <;> decide

theorem isWord_of_mem_name (hword : IsWordClass isWord) (s : Slot) :
    ∀ c ∈ s.name, isWord c = true := by
  have hname : ∀ c ∈ s.name, c.val < 0x80 ∧
      (c.isAsciiAlphanumeric || c = CodePoint.ofChar '_') = true := by
    cases s <;> decide
  intro c hc
  obtain ⟨hascii, hpart⟩ := hname c hc
  rw [hword c hascii, hpart]

/-- **Pieces in print are filled piece by piece**: what is put in is not looked at. -/
theorem substitute_print (hword : IsWordClass isWord)
    (hfixed : ∀ t, Piece.fixed t ∈ pieces → CodePoint.ofChar '\x7b' ∉ t)
    (hslot : ∀ s, Piece.slot s ∈ pieces → values.lookup s.name = some (fill s)) :
    substitute isWord values (pieces.flatMap Piece.print) =
      .ok (pieces.flatMap (Piece.render fill)) := by
  induction pieces with
  | nil => rw [List.flatMap_nil, substitute, List.flatMap_nil]
  | cons piece pieces ih =>
    have hrest := ih (fun t ht => hfixed t (List.mem_cons_of_mem _ ht))
      fun s hs => hslot s (List.mem_cons_of_mem _ hs)
    rw [List.flatMap_cons, List.flatMap_cons]
    cases piece with
    | fixed t =>
      rw [Piece.print, substitute_append (hfixed t List.mem_cons_self), hrest]
      rfl
    | slot s =>
      rw [Piece.print, substitute_placeholder hword (name_ne_nil s) (isWord_of_mem_name hword s)
        (hslot s List.mem_cons_self), hrest]
      rfl

end Pieces

/-! ### The page -/

theorem template_eq : template = skeleton.flatMap Piece.print := by
  simp [template, skeleton, Text.ofLines, Text.lines, Text.join, Piece.print, Slot.name,
    placeholderStart, placeholderEnd, Text.ofString]

theorem lookup_values (b : Bundle) (title : Text) (s : Slot) :
    (b.values title).lookup s.name = some (b.fill title s) := by
  cases s <;> rfl

/-- No fixed piece of the skeleton holds a brace. -/
theorem brace_not_mem_fixed : ∀ t, Piece.fixed t ∈ skeleton → CodePoint.ofChar '\x7b' ∉ t := by
  have hpieces : ∀ p ∈ skeleton, ∀ t, p = Piece.fixed t → CodePoint.ofChar '\x7b' ∉ t := by
    simp only [skeleton, List.forall_mem_cons, Piece.fixed.injEq, reduceCtorEq, false_implies,
      implies_true, true_and, forall_eq', List.not_mem_nil, and_true]
    and_intros
    all_goals decide +kernel
  intro t h
  exact hpieces _ h t rfl

/-- **Filling the template is one pass that looks at nothing it puts in.** The template is fixed
pieces, none of which holds a brace, with each of the seven slots between them once.  Filling it
finds a value for every placeholder, and the page is the fixed pieces with the contents between
them as they are, whatever they hold. -/
theorem page_interleaves {isWord : CodePoint → Bool} (hword : IsWordClass isWord) (b : Bundle)
    (title : Text) :
    substitute isWord (b.values title) template = .ok (b.render title) ∧
      b.render title =
        Text.ofLines ["<!DOCTYPE html>", "<html lang=\"en\">", "<head>", "<meta charset=\"utf-8\">",
          "<meta name=\"viewport\" content=\"width=device-width, initial-scale=1\">", "<title>"] ++
        (title.escapeMarkup ++
        (Text.ofLines ["</title>", "<style>", ""] ++
        (b.document.settings.style ++
        (Text.ofLines ["", "</style>", "</head>", "<body class=\""] ++
        (b.document.settings.bodyClasses ++
        (Text.ofLines ["\">",
          "<div class=\"rotate-notice\">Please rotate your device to landscape.</div>",
          "<main>", "<div id=\"svg-pane\">", ""] ++
        (b.fragments ++
        (Text.ofLines ["", "</div>", "<div id=\"text-pane\"></div>", "</main>", "<script>",
          "var NARRATION = "] ++
        (scriptSafe b.narration ++
        (Text.ofLines [";", "var ANIMATIONS = "] ++
        (scriptSafe b.mapping ++
        (Text.ofLines [";", ""] ++
        (player ++
        Text.ofLines ["", "</script>", "</body>", "</html>", ""]))))))))))))) ∧
      template = skeleton.flatMap Piece.print ∧
      skeleton.filterMap Piece.slot? =
        [.title, .style, .bodyClasses, .fragments, .narration, .mapping, .player] ∧
      ∀ t, Piece.fixed t ∈ skeleton → CodePoint.ofChar '\x7b' ∉ t := by
  refine ⟨?_, ?_, template_eq, rfl, brace_not_mem_fixed⟩
  · rw [template_eq, Bundle.render]
    exact substitute_print hword brace_not_mem_fixed fun s _ => lookup_values b title s
  · simp only [Bundle.render, skeleton, List.flatMap_cons, List.flatMap_nil, Piece.render,
      Bundle.fill, List.append_nil]
    simp [Text.ofString, Text.ofLines, Text.lines, Text.join]

/-- The letters, digits and the underscore of ASCII. -/
def isAsciiWord (c : CodePoint) : Bool :=
  c.isAsciiAlphanumeric || c = CodePoint.ofChar '_'

/-- Contents that look like placeholders, and like references to what was found. -/
def nestedBundle : Bundle where
  document := talk
  fragments := "<svg>\x7b\x7bmapping\x7d\x7d \x7b\x7bfragments\x7d\x7d \\1</svg>"
  narration := "[\"\x7b\x7bplayer\x7d\x7d \x7b\x7b\", \"title\x7d\x7d \\g<0>\"]"
  mapping := "\x7b\"a__1\": \x7b\x7bnarration\x7d\x7d\x7d"

theorem page_interleaves_nested : IsWordClass isAsciiWord ∧
    substitute isAsciiWord (nestedBundle.values "\x7b\x7btitle\x7d\x7d \\1") template =
      .ok (nestedBundle.render "\x7b\x7btitle\x7d\x7d \\1") := by
  have hword : IsWordClass isAsciiWord := fun _ _ => rfl
  exact ⟨hword, (page_interleaves hword nestedBundle _).1⟩

end SvgDeck
