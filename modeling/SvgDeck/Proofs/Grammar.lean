/-
The grammar of directives.

`Writes` says which texts are numbers, and which numbers they are.  A rectangle is four numbers
with commas between them (`RectText`), and rectangles and opacities stand in rows (`Row`).  A
directive is a row of tokens (`IsFocus`, `IsHighlight`).  The readers accept exactly what the
grammar describes, and what they read has the value of what is written:

* `readNumber_eq_ok`, `exists_readNumber` — numbers;
* `Rect.parseList_eq_ok`, `Rect.exists_parseList` — rectangles;
* `parseOpacities_eq_ok` — opacities;
* `Focus.parse_eq_ok`, `Focus.exists_parse` and their twins for highlights — directives.
-/
import SvgDeck.Directive.Focus
import SvgDeck.Directive.Highlight
import SvgDeck.Proofs.Decimal
import SvgDeck.Proofs.FirstFault
import Mathlib.Data.List.TakeWhile

namespace SvgDeck

/-- A row of code points of a class ends where another code point stands. -/
theorem Text.takeWhile_append {p : CodePoint → Bool} {s t : Text} (hs : ∀ c ∈ s, p c = true)
    (ht : ∀ c ∈ t.head?, p c = false) :
    (s ++ t).takeWhile p = s ∧ (s ++ t).dropWhile p = t := by
  rw [List.takeWhile_append_of_pos hs, List.dropWhile_append_of_pos hs]
  cases t with
  | nil => simp
  | cons c t => simp [ht c rfl]

namespace Directive

/-! ### Numbers -/

def IsDigits (t : Text) : Prop := ∀ c ∈ t, c.isDigit = true

/-- The text writes the number, as digits, as digits with a point between or behind them, or as
digits with a point in front. -/
inductive Writes : Text → ℚ → Prop
  | whole {s : Text} (hs : IsDigits s) (hne : s ≠ []) : Writes s (Text.digitsValue s)
  | point {s f : Text} (hs : IsDigits s) (hne : s ≠ []) (hf : IsDigits f) :
    Writes (s ++ CodePoint.ofChar '.' :: f) (Text.digitsValue (s ++ f) / 10 ^ f.length)
  | fraction {f : Text} (hf : IsDigits f) (hne : f ≠ []) :
    Writes (CodePoint.ofChar '.' :: f) (Text.digitsValue f / 10 ^ f.length)

def IsNumber (t : Text) : Prop := ∃ q, Writes t q

/-- No numeral goes on with what stands here. -/
def Stops (t : Text) : Prop := ∀ c ∈ t.head?, c.isDigit = false ∧ c ≠ CodePoint.ofChar '.'

theorem isDigit_point : (CodePoint.ofChar '.').isDigit = false := by decide

section Numbers

variable {s t rest : Text} {q : ℚ}

theorem isDigits_takeWhile (t : Text) : IsDigits (t.takeWhile CodePoint.isDigit) :=
  fun _ hc => List.mem_takeWhile_imp hc

theorem value_ofNumeral_none (s : Text) :
    (Decimal.ofNumeral ⟨s, none⟩).value = Text.digitsValue s := by
  simp [Decimal.ofNumeral, Decimal.value]

theorem value_ofNumeral_some (s f : Text) :
    (Decimal.ofNumeral ⟨s, some f⟩).value = Text.digitsValue (s ++ f) / 10 ^ f.length := by
  simp [Decimal.ofNumeral, Decimal.value, div_eq_mul_inv]

/-- What is taken off the front of a text is a number. -/
theorem writes_of_split? {n : Numeral} (h : Numeral.split? t = some (n, rest)) :
    Writes n.text (Decimal.ofNumeral n).value := by
  have hdigits := isDigits_takeWhile
  rw [Numeral.split?] at h
  split at h
  · split at h
    · cases h
    · next hne =>
      cases h
      rw [value_ofNumeral_none]
      exact .whole (hdigits t) hne
  · next c after _ =>
    split at h
    · next hc =>
      cases h
      rw [value_ofNumeral_some]
      by_cases hne : t.takeWhile CodePoint.isDigit = []
      · -- Nothing stands before the point, so a digit stands behind it.
        have hfraction : after.takeWhile CodePoint.isDigit ≠ [] := by
          have hstart : Numeral.startsWithDigit after = true :=
            hc.2.resolve_left fun h => h hne
          cases after with
          | nil => cases hstart
          | cons d after =>
            have hd : d.isDigit = true := hstart
            simp [hd]
        rw [Numeral.text, hne]
        exact .fraction (hdigits after) hfraction
      · exact .point (hdigits t) hne (hdigits after)
    · split at h
      · cases h
      · next hne =>
        cases h
        rw [value_ofNumeral_none]
        exact .whole (hdigits t) hne

theorem stops_nil : Stops [] := by simp [Stops]

theorem Stops.digit (h : Stops rest) : ∀ c ∈ rest.head?, c.isDigit = false :=
  fun c hc => (h c hc).1

theorem split?_whole (hs : IsDigits s) (hne : s ≠ []) (hrest : Stops rest) :
    Numeral.split? (s ++ rest) = some (⟨s, none⟩, rest) := by
  obtain ⟨htake, hdrop⟩ := Text.takeWhile_append hs hrest.digit
  rw [Numeral.split?, htake, hdrop]
  cases rest with
  | nil => simp [hne]
  | cons c rest => simp [hne, (hrest c rfl).2]

theorem split?_point {f : Text} (hs : IsDigits s) (hf : IsDigits f) (hne : s ≠ [] ∨ f ≠ [])
    (hrest : ∀ c ∈ rest.head?, c.isDigit = false) :
    Numeral.split? (s ++ CodePoint.ofChar '.' :: f ++ rest) = some (⟨s, some f⟩, rest) := by
  have hpoint : ∀ c ∈ (CodePoint.ofChar '.' :: f ++ rest).head?, c.isDigit = false := by
    rintro c ⟨⟩
    exact isDigit_point
  have hstart : s ≠ [] ∨ Numeral.startsWithDigit (f ++ rest) = true := by
    refine hne.imp_right fun hne => ?_
    obtain ⟨d, f, rfl⟩ := List.exists_cons_of_ne_nil hne
    exact hf d List.mem_cons_self
  obtain ⟨htake, hdrop⟩ := Text.takeWhile_append hs hpoint
  obtain ⟨htake', hdrop'⟩ := Text.takeWhile_append hf hrest
  rw [List.append_assoc, Numeral.split?, htake, hdrop]
  simp [hstart, htake', hdrop']

/-- A number is taken off the front of a text if no longer one stands there. -/
theorem exists_split? (h : Writes s q) (hrest : Stops rest) :
    ∃ n, Numeral.split? (s ++ rest) = some (n, rest) ∧ (Decimal.ofNumeral n).value = q := by
  cases h with
  | whole hs hne => exact ⟨_, split?_whole hs hne hrest, value_ofNumeral_none s⟩
  | @point s f hs hne hf =>
    exact ⟨_, split?_point hs hf (Or.inl hne) hrest.digit, value_ofNumeral_some s f⟩
  | @fraction f hf hne =>
    have hsplit := split?_point (s := []) (by simp [IsDigits]) hf (Or.inr hne) hrest.digit
    exact ⟨_, hsplit, value_ofNumeral_some [] f⟩

/-- A number that is read is a numeral up to its end. -/
theorem exists_numeral_of_readNumber {start : Nat} {d : Decimal} (h : readNumber start t = .ok d) :
    ∃ n, Numeral.split? t = some (n, []) ∧ n.text = t ∧ d = .ofNumeral n := by
  rw [readNumber] at h
  split at h
  · cases h
  · next n hn =>
    cases h
    have htext := Numeral.append_of_split? hn
    rw [List.append_nil] at htext
    exact ⟨n, hn, htext, rfl⟩
  · cases h

theorem readNumber_eq_ok {start : Nat} {d : Decimal} (h : readNumber start t = .ok d) :
    Writes t d.value := by
  obtain ⟨n, hn, rfl, rfl⟩ := exists_numeral_of_readNumber h
  exact writes_of_split? hn

theorem exists_readNumber (h : Writes t q) :
    ∃ d : Decimal, d.value = q ∧ ∀ start, readNumber start t = .ok d := by
  obtain ⟨n, hn, hvalue⟩ := exists_split? h stops_nil
  rw [List.append_nil] at hn
  exact ⟨_, hvalue, fun start => by rw [readNumber, hn]⟩

theorem readField_eq_ok {start next : Nat} {d : Decimal}
    (h : readField start t = .ok (d, next, rest)) :
    ∃ s, Writes s d.value ∧ t = s ++ CodePoint.ofChar ',' :: rest := by
  rw [readField] at h
  split at h
  · cases h
  · cases h
  · next n c after hn =>
    split at h
    · next hc =>
      cases h
      exact ⟨n.text, writes_of_split? hn, by rw [← hc, Numeral.append_of_split? hn]⟩
    · cases h

theorem exists_readField (h : Writes s q) (rest : Text) :
    ∃ d : Decimal, d.value = q ∧ ∀ start, ∃ next,
      readField start (s ++ CodePoint.ofChar ',' :: rest) = .ok (d, next, rest) := by
  have hstops : Stops (CodePoint.ofChar ',' :: rest) := by
    rintro c ⟨⟩
    decide
  obtain ⟨n, hn, hvalue⟩ := exists_split? h hstops
  exact ⟨_, hvalue, fun start => ⟨_, by rw [readField, hn]; exact if_pos rfl⟩⟩

end Numbers

/-- A number holds neither of the separators. -/
theorem Writes.not_mem {t : Text} {q : ℚ} (h : Writes t q) {c : CodePoint}
    (hc : c.isDigit = false) (hpoint : c ≠ CodePoint.ofChar '.') : c ∉ t := by
  have hdigits : ∀ {s : Text}, IsDigits s → c ∉ s := fun hs hmem => by
    rw [hs c hmem] at hc
    cases hc
  cases h with
  | whole hs _ => exact hdigits hs
  | point hs _ hf => simp [hdigits hs, hdigits hf, hpoint]
  | fraction hf _ => simp [hdigits hf, hpoint]

/-! ### Rectangles -/

/-- The numbers of a rectangle as they are written. -/
structure RectText where
  x : Text
  y : Text
  w : Text
  h : Text

namespace RectText

variable {t : RectText} {r : Rect}

def parts (t : RectText) : List Text := [t.x, t.y, t.w, t.h]

/-- The rectangle as it is written. -/
def source (t : RectText) : Text := Text.join "," t.parts

/-- The text writes the rectangle: it is its source, and its parts are the numbers. -/
structure Writes (t : RectText) (r : Rect) : Prop where
  source : r.source = t.source
  x : Directive.Writes t.x r.x.value
  y : Directive.Writes t.y r.y.value
  w : Directive.Writes t.w r.w.value
  h : Directive.Writes t.h r.h.value

theorem source_eq (t : RectText) : t.source = t.x ++ CodePoint.ofChar ',' :: (t.y ++
    CodePoint.ofChar ',' :: (t.w ++ CodePoint.ofChar ',' :: t.h)) := by
  simp [source, parts, Text.join, Text.ofString, List.intercalate]

theorem splitOn_source (h : ∀ part ∈ t.parts, IsNumber part) :
    t.source.splitOn (CodePoint.ofChar ',') = t.parts := by
  refine List.splitOn_intercalate _ (fun part hpart => ?_) (by simp [parts])
  obtain ⟨q, hq⟩ := h part hpart
  exact hq.not_mem (by decide) (by decide)

theorem Writes.isNumber (h : t.Writes r) : ∀ part ∈ t.parts, IsNumber part := by
  simp only [parts, List.forall_mem_cons]
  exact ⟨⟨_, h.x⟩, ⟨_, h.y⟩, ⟨_, h.w⟩, ⟨_, h.h⟩, by simp⟩

/-- The components of a rectangle are its parts as they are written. -/
theorem Writes.components (h : t.Writes r) : r.components = t.parts := by
  rw [Rect.components, h.source, splitOn_source h.isNumber]

end RectText

def IsRect (s : Text) : Prop := ∃ t : RectText, t.source = s ∧ ∀ part ∈ t.parts, IsNumber part

theorem Rect.read_eq_ok {start : Nat} {s : Text} {r : Rect} (h : Rect.read start s = .ok r) :
    r.source = s ∧ ∃ t : RectText, t.Writes r := by
  rw [Rect.read] at h
  obtain ⟨⟨x, s1, rest1⟩, h1, h⟩ := bind_eq_ok.mp h
  obtain ⟨⟨y, s2, rest2⟩, h2, h⟩ := bind_eq_ok.mp h
  obtain ⟨⟨w, s3, rest3⟩, h3, h⟩ := bind_eq_ok.mp h
  obtain ⟨height, h4, h⟩ := bind_eq_ok.mp h
  cases h
  obtain ⟨tx, hx, rfl⟩ := readField_eq_ok h1
  obtain ⟨ty, hy, rfl⟩ := readField_eq_ok h2
  obtain ⟨tw, hw, rfl⟩ := readField_eq_ok h3
  have hsource := RectText.source_eq ⟨tx, ty, tw, rest3⟩
  exact ⟨rfl, ⟨tx, ty, tw, rest3⟩, hsource.symm, hx, hy, hw, readNumber_eq_ok h4⟩

theorem Rect.exists_read {s : Text} (h : IsRect s) : ∃ r, ∀ start, Rect.read start s = .ok r := by
  obtain ⟨t, rfl, hparts⟩ := h
  simp only [RectText.parts, List.forall_mem_cons] at hparts
  obtain ⟨⟨_, hx⟩, ⟨_, hy⟩, ⟨_, hw⟩, ⟨_, hh⟩, _⟩ := hparts
  obtain ⟨h, _, hlast⟩ := exists_readNumber hh
  obtain ⟨w, _, hthird⟩ := exists_readField hw t.h
  obtain ⟨y, _, hsecond⟩ := exists_readField hy (t.w ++ CodePoint.ofChar ',' :: t.h)
  obtain ⟨x, _, hfirst⟩ :=
    exists_readField hx (t.y ++ CodePoint.ofChar ',' :: (t.w ++ CodePoint.ofChar ',' :: t.h))
  refine ⟨⟨x, y, w, h, t.source⟩, fun start => ?_⟩
  -- The positions differ from start to start, and what is read does not.
  obtain ⟨s1, h1⟩ := hfirst start
  obtain ⟨s2, h2⟩ := hsecond s1
  obtain ⟨s3, h3⟩ := hthird s2
  rw [RectText.source_eq, Rect.read]
  exact bind_eq_ok.mpr ⟨_, h1, bind_eq_ok.mpr ⟨_, h2, bind_eq_ok.mpr ⟨_, h3,
    bind_eq_ok.mpr ⟨_, hlast s3, rfl⟩⟩⟩⟩

/-! ### Rows -/

/-- One item or more, with one separator between neighbours. -/
inductive Row (item : Text → Prop) (separates : CodePoint → Bool) : Text → Prop
  | one {s : Text} (hs : item s) : Row item separates s
  | more {s rest : Text} {c : CodePoint} (hs : item s) (hc : separates c = true)
    (hrest : Row item separates rest) : Row item separates (s ++ c :: rest)

section Rows

variable {item : Text → Prop} {separates : CodePoint → Bool} {t : Text}

theorem Row.splitOnP (hitem : ∀ s, item s → ∀ c ∈ s, separates c = false)
    (h : Row item separates t) : ∀ piece ∈ t.splitOnP separates, item piece := by
  induction h with
  | @one s hs =>
    rw [List.splitOnP_eq_singleton (hitem s hs)]
    simpa using hs
  | @more s rest c hs hc _ ih =>
    rw [List.splitOnP_append_cons_of_forall_mem (hitem s hs) c hc, List.forall_mem_cons]
    exact ⟨hs, ih⟩

/-- A text is a row if its pieces are items. -/
theorem row_of_splitOnP (h : ∀ piece ∈ t.splitOnP separates, item piece) :
    Row item separates t := by
  -- The induction is on the length: what follows the first separator is shorter.
  induction hn : t.length using Nat.strong_induction_on generalizing t with
  | _ n ih =>
    cases hfirst : t.find? separates with
    | none =>
      have hnone : ∀ c ∈ t, separates c = false := by simpa using List.find?_eq_none.mp hfirst
      rw [List.splitOnP_eq_singleton hnone] at h
      exact .one (h t (List.mem_singleton_self t))
    | some c =>
      obtain ⟨hc, s, rest, rfl, hs⟩ := List.find?_eq_some_iff_append.mp hfirst
      have hs : ∀ x ∈ s, separates x = false := by simpa using hs
      rw [List.splitOnP_append_cons_of_forall_mem hs c hc, List.forall_mem_cons] at h
      refine .more h.1 hc (ih rest.length ?_ h.2 rfl)
      simp only [← hn, List.length_append, List.length_cons]
      omega

theorem row_iff (hitem : ∀ s, item s → ∀ c ∈ s, separates c = false) :
    Row item separates t ↔ ∀ piece ∈ t.splitOnP separates, item piece :=
  ⟨Row.splitOnP hitem, row_of_splitOnP⟩

/-- Every piece is read, from the position where it stands. -/
theorem readPieces_eq_ok {α : Type} {read : Nat → Text → Except Misread α} {start : Nat}
    {pieces : List Text} {as : List α} (h : readPieces read start pieces = .ok as) :
    List.Forall₂ (fun piece a => ∃ at_, read at_ piece = .ok a) pieces as := by
  induction pieces generalizing start as with
  | nil =>
    cases h
    exact .nil
  | cons piece pieces ih =>
    rw [readPieces] at h
    obtain ⟨a, ha, h⟩ := bind_eq_ok.mp h
    obtain ⟨as', has, h⟩ := bind_eq_ok.mp h
    cases h
    exact .cons ⟨start, ha⟩ (ih has)

theorem exists_readPieces {α : Type} {read : Nat → Text → Except Misread α} {pieces : List Text}
    (h : ∀ piece ∈ pieces, ∃ a, ∀ start, read start piece = .ok a) :
    ∃ as, ∀ start, readPieces read start pieces = .ok as := by
  induction pieces with
  | nil => exact ⟨[], fun _ => rfl⟩
  | cons piece pieces ih =>
    obtain ⟨⟨a, ha⟩, hpieces⟩ := List.forall_mem_cons.mp h
    obtain ⟨as, has⟩ := ih hpieces
    exact ⟨a :: as, fun start => by rw [readPieces, ha, ok_bind, has, ok_bind]; rfl⟩

end Rows

/-! ### Readers of rows -/

/-- The separator of a row of rectangles. -/
def isRectSeparator (c : CodePoint) : Bool := c == CodePoint.ofChar ';'

def IsRects (t : Text) : Prop := Row IsRect isRectSeparator t

def IsOpacities (t : Text) : Prop := Row IsNumber isOpacitySeparator t

theorem IsRect.not_separates {s : Text} (h : IsRect s) : ∀ c ∈ s, isRectSeparator c = false := by
  obtain ⟨t, rfl, hparts⟩ := h
  have hpart : ∀ part ∈ t.parts, CodePoint.ofChar ';' ∉ part := by
    intro part hpart
    obtain ⟨q, hq⟩ := hparts part hpart
    exact hq.not_mem (by decide) (by decide)
  simp only [RectText.parts, List.forall_mem_cons] at hpart
  have hcomma : CodePoint.ofChar ';' ≠ CodePoint.ofChar ',' := by decide
  have hmem : CodePoint.ofChar ';' ∉ t.source := by
    simp [RectText.source_eq, hpart, hcomma]
  intro c hc
  refine beq_eq_false_iff_ne.mpr ?_
  rintro rfl
  exact hmem hc

theorem IsNumber.not_separates {s : Text} (h : IsNumber s) :
    ∀ c ∈ s, isOpacitySeparator c = false := by
  obtain ⟨q, hq⟩ := h
  intro c hc
  rw [isOpacitySeparator, Bool.or_eq_false_iff, decide_eq_false_iff_not, decide_eq_false_iff_not]
  constructor
  · rintro rfl
    exact hq.not_mem (by decide) (by decide) hc
  · rintro rfl
    exact hq.not_mem (by decide) (by decide) hc

theorem inToken_eq_ok {α : Type} {part token : Text} {x : Except Misread α} {a : α} :
    inToken part token x = .ok a ↔ x = .ok a := by
  cases x <;> simp [inToken, Except.mapError]

theorem RectText.Writes.isRect {t : RectText} {r : Rect} (h : t.Writes r) : IsRect r.source :=
  ⟨t, h.source.symm, h.isNumber⟩

/-- What is read are the rectangles of the token, one for each piece. -/
theorem Rect.parseList_eq_ok {token : Text} {rects : List Rect}
    (h : Rect.parseList token = .ok rects) :
    IsRects token ∧ rects.map Rect.source = token.splitOn (CodePoint.ofChar ';') ∧
      ∀ r ∈ rects, ∃ t : RectText, t.Writes r := by
  have hread := readPieces_eq_ok (inToken_eq_ok.mp h)
  have hpieces : ∀ piece ∈ token.splitOnP isRectSeparator, IsRect piece := by
    intro piece hpiece
    obtain ⟨r, _, _, hr⟩ := exists_of_forall₂ hread.flip hpiece
    obtain ⟨hsource, t, ht⟩ := read_eq_ok hr
    exact hsource ▸ ht.isRect
  have hwritten : ∀ r ∈ rects, ∃ t : RectText, t.Writes r := by
    intro r hmem
    obtain ⟨_, _, _, hr⟩ := exists_of_forall₂ hread hmem
    exact (read_eq_ok hr).2
  have hsources : List.Forall₂ (fun r piece => r.source = piece) rects
      (token.splitOn (CodePoint.ofChar ';')) :=
    hread.flip.imp fun _ _ ⟨_, hr⟩ => (read_eq_ok hr).1
  rw [← List.forall₂_map_left_iff, List.forall₂_eq_eq_eq] at hsources
  exact ⟨row_of_splitOnP hpieces, hsources, hwritten⟩

theorem Rect.exists_parseList {token : Text} (h : IsRects token) :
    ∃ rects, Rect.parseList token = .ok rects := by
  have hpieces := (row_iff fun _ => IsRect.not_separates).mp h
  obtain ⟨rects, hrects⟩ := exists_readPieces fun piece hpiece => exists_read (hpieces piece hpiece)
  exact ⟨rects, inToken_eq_ok.mpr (hrects 0)⟩

theorem parseOpacities_eq_ok {token opacities : Text} :
    parseOpacities token = .ok opacities ↔ IsOpacities token ∧ opacities = token := by
  rw [parseOpacities, bind_eq_ok]
  constructor
  · rintro ⟨numbers, hpieces, h⟩
    have hread := readPieces_eq_ok (inToken_eq_ok.mp hpieces)
    refine ⟨row_of_splitOnP fun piece hpiece => ?_, (Except.ok.inj h).symm⟩
    obtain ⟨_, _, _, hnumber⟩ := exists_of_forall₂ hread.flip hpiece
    exact ⟨_, readNumber_eq_ok hnumber⟩
  · rintro ⟨h, rfl⟩
    have hpieces := (row_iff fun _ => IsNumber.not_separates).mp h
    have hnumbers : ∀ piece ∈ opacities.splitOnP isOpacitySeparator,
        ∃ d, ∀ start, readNumber start piece = .ok d := by
      intro piece hpiece
      obtain ⟨q, hq⟩ := hpieces piece hpiece
      obtain ⟨d, _, hd⟩ := exists_readNumber hq
      exact ⟨d, hd⟩
    obtain ⟨numbers, hread⟩ := exists_readPieces hnumbers
    exact ⟨numbers, inToken_eq_ok.mpr (hread 0), rfl⟩

theorem parseNumber_eq_ok {part token : Text} {d : Decimal} (h : parseNumber part token = .ok d) :
    Writes token d.value := readNumber_eq_ok (inToken_eq_ok.mp h)

theorem exists_parseNumber {token : Text} {q : ℚ} (h : Writes token q) (part : Text) :
    ∃ d : Decimal, d.value = q ∧ parseNumber part token = .ok d := by
  obtain ⟨d, hvalue, hd⟩ := exists_readNumber h
  exact ⟨d, hvalue, inToken_eq_ok.mpr (hd 0)⟩

theorem parseThickness_eq_ok {token thickness : Text} :
    parseThickness token = .ok thickness ↔ IsNumber token ∧ thickness = token := by
  rw [parseThickness, bind_eq_ok]
  constructor
  · rintro ⟨d, hd, h⟩
    exact ⟨⟨_, parseNumber_eq_ok hd⟩, (Except.ok.inj h).symm⟩
  · rintro ⟨⟨q, hq⟩, rfl⟩
    obtain ⟨d, _, hd⟩ := exists_parseNumber hq "thickness"
    exact ⟨d, hd, rfl⟩

theorem Timing.parse_eq_ok {start stop : Text} {t : Timing} (h : Timing.parse start stop = .ok t) :
    Writes start t.start.value ∧ Writes stop t.stop.value := by
  obtain ⟨a, ha, h⟩ := bind_eq_ok.mp h
  obtain ⟨b, hb, h⟩ := bind_eq_ok.mp h
  cases h
  exact ⟨parseNumber_eq_ok ha, parseNumber_eq_ok hb⟩

theorem Timing.exists_parse {start stop : Text} {a b : ℚ} (ha : Writes start a)
    (hb : Writes stop b) :
    ∃ t, Timing.parse start stop = .ok t ∧ t.start.value = a ∧ t.stop.value = b := by
  obtain ⟨d, hd, hstart⟩ := exists_parseNumber ha "start time"
  obtain ⟨e, he, hstop⟩ := exists_parseNumber hb "end time"
  exact ⟨⟨d, e⟩, bind_eq_ok.mpr ⟨d, hstart, bind_eq_ok.mpr ⟨e, hstop, rfl⟩⟩, hd, he⟩

/-! ### Tokens -/

/-- The text can be a token: it is not empty and holds no blank. -/
def IsToken (t : Text) : Prop := t ≠ [] ∧ ∀ c ∈ t, c.isBlank = false

theorem not_mem_of_mem_splitOnP {p : CodePoint → Bool} {t piece : Text}
    (h : piece ∈ t.splitOnP p) : ∀ c ∈ piece, p c = false := by
  induction t generalizing piece with
  | nil =>
    rw [List.splitOnP_nil, List.mem_singleton] at h
    simp [h]
  | cons a t ih =>
    rw [List.splitOnP_cons_eq_if_modifyHead] at h
    by_cases ha : p a = true
    · rw [if_pos ha] at h
      rcases List.mem_cons.mp h with rfl | h
      · simp
      · exact ih h
    · obtain ⟨first, pieces, hpieces⟩ := List.exists_cons_of_ne_nil (List.splitOnP_ne_nil p t)
      rw [if_neg ha, hpieces, List.modifyHead_cons] at h
      -- The front belongs to the first piece.
      rcases List.mem_cons.mp h with rfl | h
      · have hfirst := ih (hpieces ▸ List.mem_cons_self)
        exact List.forall_mem_cons.mpr ⟨by simpa using ha, hfirst⟩
      · exact ih (hpieces ▸ List.mem_cons_of_mem _ h)

theorem isToken_of_mem_words {t word : Text} (h : word ∈ t.words) : IsToken word := by
  obtain ⟨hpiece, hne⟩ := List.mem_filter.mp h
  exact ⟨by simpa using hne, not_mem_of_mem_splitOnP hpiece⟩

theorem words_of_isToken {t : Text} (h : IsToken t) : t.words = [t] := by
  rw [Text.words, List.splitOnP_eq_singleton h.2]
  simp [h.1]

theorem words_append {word t : Text} (h : IsToken word) {c : CodePoint} (hc : c.isBlank = true) :
    (word ++ c :: t).words = word :: t.words := by
  rw [Text.words, List.splitOnP_append_cons_of_forall_mem h.2 c hc]
  simp [h.1, Text.words]

/-! ### Directives -/

/-- The text is a focus in time from `a` to `b`. -/
def IsFocus (text : Text) (a b : ℚ) : Prop :=
  ∃ rects start stop, text.words = [rects, start, stop] ∧ IsRects rects ∧
    Writes start a ∧ Writes stop b

/-- The text is a highlight in time from `a` to `b`. -/
def IsHighlight (text : Text) (a b : ℚ) : Prop :=
  ∃ rects color thickness opacities start stop,
    text.words = [rects, color, thickness, opacities, start, stop] ∧ IsRects rects ∧
      IsToken color ∧ IsNumber thickness ∧ IsOpacities opacities ∧ Writes start a ∧ Writes stop b

/-- What is read from a focus: a keyframe for each rectangle, and the times. -/
theorem Focus.parse_eq_ok {text : Text} {f : Focus} (h : Focus.parse text = .ok f) :
    ∃ rects start stop, text.words = [rects, start, stop] ∧
      Rect.parseList rects = .ok f.keyframes ∧ Timing.parse start stop = .ok f.timing := by
  rw [Focus.parse] at h
  split at h
  · next rects start stop hwords =>
    obtain ⟨keyframes, hrects, h⟩ := bind_eq_ok.mp h
    obtain ⟨timing, htiming, h⟩ := bind_eq_ok.mp h
    cases h
    exact ⟨rects, start, stop, hwords, hrects, htiming⟩
  · cases h

theorem Focus.exists_parse {text : Text} {a b : ℚ} (h : IsFocus text a b) :
    ∃ f, Focus.parse text = .ok f ∧ f.timing.start.value = a ∧ f.timing.stop.value = b := by
  obtain ⟨rects, start, stop, hwords, hrects, ha, hb⟩ := h
  obtain ⟨keyframes, hkeyframes⟩ := Rect.exists_parseList hrects
  obtain ⟨timing, htiming, hstart, hstop⟩ := Timing.exists_parse ha hb
  refine ⟨⟨keyframes, timing⟩, ?_, hstart, hstop⟩
  rw [Focus.parse, hwords]
  exact bind_eq_ok.mpr ⟨keyframes, hkeyframes, bind_eq_ok.mpr ⟨timing, htiming, rfl⟩⟩

theorem Highlight.parse_eq_ok {text : Text} {h : Highlight} (hparse : Highlight.parse text = .ok h) :
    ∃ rects start stop, text.words = [rects, h.color, h.thickness, h.opacities, start, stop] ∧
      Rect.parseList rects = .ok h.rects ∧ IsNumber h.thickness ∧ IsOpacities h.opacities ∧
        Timing.parse start stop = .ok h.timing := by
  rw [Highlight.parse] at hparse
  split at hparse
  · next rects color thickness opacities start stop hwords =>
    obtain ⟨rects', hrects, hparse⟩ := bind_eq_ok.mp hparse
    obtain ⟨thickness', hthickness, hparse⟩ := bind_eq_ok.mp hparse
    obtain ⟨opacities', hopacities, hparse⟩ := bind_eq_ok.mp hparse
    obtain ⟨timing, htiming, hparse⟩ := bind_eq_ok.mp hparse
    cases hparse
    obtain ⟨hthickness, rfl⟩ := parseThickness_eq_ok.mp hthickness
    obtain ⟨hopacities, rfl⟩ := parseOpacities_eq_ok.mp hopacities
    exact ⟨rects, start, stop, hwords, hrects, hthickness, hopacities, htiming⟩
  · cases hparse

theorem Highlight.exists_parse {text : Text} {a b : ℚ} (h : IsHighlight text a b) :
    ∃ h, Highlight.parse text = .ok h ∧ h.timing.start.value = a ∧ h.timing.stop.value = b := by
  obtain ⟨rects, color, thickness, opacities, start, stop, hwords, hrects, _, hthickness,
    hopacities, ha, hb⟩ := h
  obtain ⟨rects', hrects'⟩ := Rect.exists_parseList hrects
  obtain ⟨timing, htiming, hstart, hstop⟩ := Timing.exists_parse ha hb
  have hthickness' := parseThickness_eq_ok.mpr ⟨hthickness, rfl⟩
  have hopacities' := parseOpacities_eq_ok.mpr ⟨hopacities, rfl⟩
  refine ⟨⟨rects', color, thickness, opacities, timing⟩, ?_, hstart, hstop⟩
  rw [Highlight.parse, hwords]
  exact bind_eq_ok.mpr ⟨_, hrects', bind_eq_ok.mpr ⟨_, hthickness', bind_eq_ok.mpr ⟨_, hopacities',
    bind_eq_ok.mpr ⟨_, htiming, rfl⟩⟩⟩⟩

end Directive

end SvgDeck
