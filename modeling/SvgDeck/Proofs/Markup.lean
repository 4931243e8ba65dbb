/-
Markup can be written to a file.

What a directive repeats from the author's text are numerals and separators, and the color
of a highlight, which is looked at for surrogates.  So whatever compiles holds none:

* `Directive.Writes.isUnicode` — numbers have a UTF-8 form;
* `isUnicode_compileFocus`, `isUnicode_compileHighlight` — the markup has a UTF-8 form.
-/
import SvgDeck.Proofs.Animation
import SvgDeck.Proofs.Grammar
import SvgDeck.Proofs.Unicode

namespace SvgDeck

open Text

/-! ### Pieces between separators -/

/-- A text is its pieces and the separators between them. -/
theorem isUnicode_splitOnP {p : CodePoint → Bool} (hp : ∀ c, p c = true → c.isSurrogate = false)
    {t : Text} : (∀ piece ∈ t.splitOnP p, IsUnicode piece) ↔ IsUnicode t := by
  induction t with
  | nil => simp
  | cons c t ih =>
    -- The front is a separator of its own or belongs to the first piece.
    rw [List.splitOnP_cons_eq_if_modifyHead, isUnicode_cons, ← ih]
    by_cases hc : p c = true
    · rw [if_pos hc, List.forall_mem_cons]
      simp [hp c hc]
    · obtain ⟨piece, pieces, hpieces⟩ := List.exists_cons_of_ne_nil (List.splitOnP_ne_nil p t)
      rw [if_neg hc, hpieces, List.modifyHead_cons, List.forall_mem_cons, List.forall_mem_cons,
        isUnicode_cons, and_assoc]

theorem isUnicode_splitOn (separator : Char) {t : Text} :
    (∀ piece ∈ t.splitOn (CodePoint.ofChar separator), IsUnicode piece) ↔ IsUnicode t := by
  rw [List.splitOn_eq_splitOnP]
  refine isUnicode_splitOnP fun c hc => ?_
  rw [eq_of_beq hc]
  exact CodePoint.isSurrogate_ofChar separator

/-! ### Decimals -/

theorem isUnicode_withPoint {digits : Text} (h : IsUnicode digits) (place : Int) :
    IsUnicode (Decimal.withPoint digits place) := by
  rw [Decimal.withPoint]
  split
  · simp [h]
  · split
    · simp [h]
    · simp [h.of_subset (List.take_subset _ _), h.of_subset (List.drop_subset _ _)]

@[simp] theorem isUnicode_sign (d : Decimal) : IsUnicode d.sign := by
  rw [Decimal.sign]
  split <;> simp

@[simp] theorem isUnicode_positional (d : Decimal) : IsUnicode d.positional := by
  have hdigits : IsUnicode d.digits := isUnicode_ofNat _
  rw [Decimal.positional]
  split
  · simp
  · split
    · simp [hdigits]
    · simp [isUnicode_withPoint hdigits]

namespace Directive

theorem IsDigits.isUnicode {t : Text} (h : IsDigits t) : IsUnicode t :=
  fun c hc => CodePoint.isSurrogate_of_isDigit (h c hc)

theorem Writes.isUnicode {t : Text} {q : ℚ} (h : Writes t q) : IsUnicode t := by
  cases h with
  | whole hs _ => exact hs.isUnicode
  | point hs _ hf => simp [hs.isUnicode, hf.isUnicode]
  | fraction hf _ => simp [hf.isUnicode]

theorem IsRect.isUnicode {s : Text} (h : IsRect s) : IsUnicode s := by
  obtain ⟨t, rfl, hparts⟩ := h
  refine (isUnicode_join (by simp)).mpr fun part hpart => ?_
  obtain ⟨q, hq⟩ := hparts part hpart
  exact hq.isUnicode

theorem IsOpacities.isUnicode {t : Text} (h : IsOpacities t) : IsUnicode t := by
  induction h with
  | one hs =>
    obtain ⟨q, hq⟩ := hs
    exact hq.isUnicode
  | @more s rest c hs hc _ ih =>
    obtain ⟨q, hq⟩ := hs
    rw [isOpacitySeparator, Bool.or_eq_true, decide_eq_true_eq, decide_eq_true_eq] at hc
    rcases hc with rfl | rfl <;> simp [hq.isUnicode, ih]

/-- The rectangles of a token repeat numbers. -/
theorem Rect.isUnicode_of_parseList {token : Text} {rects : List Rect}
    (h : Rect.parseList token = .ok rects) : ∀ r ∈ rects, IsUnicode r.source := by
  obtain ⟨_, _, hwritten⟩ := parseList_eq_ok h
  intro r hr
  obtain ⟨t, ht⟩ := hwritten r hr
  exact ht.isRect.isUnicode

/-! ### Markup -/

theorem isUnicode_components {r : Rect} (h : IsUnicode r.source) :
    ∀ part ∈ r.components, IsUnicode part := (isUnicode_splitOn ',').mpr h

theorem isUnicode_viewBox {r : Rect} (h : IsUnicode r.source) : IsUnicode r.viewBox :=
  (isUnicode_join (by simp)).mpr (isUnicode_components h)

theorem trimFraction_subset (t : Text) : trimFraction t ⊆ t := by
  rw [trimFraction]
  split
  · intro c hc
    have hc := List.mem_reverse.mp hc
    have hc := (List.dropWhile_suffix _).subset ((List.dropWhile_suffix _).subset hc)
    exact List.mem_reverse.mp hc
  · exact List.Subset.refl t

@[simp] theorem isUnicode_formatSeconds (d : Decimal) : IsUnicode (formatSeconds d) := by
  have htrim : IsUnicode (trimFraction d.positional) :=
    (isUnicode_positional d).of_subset (trimFraction_subset _)
  simp [formatSeconds, htrim]

theorem isUnicode_animate {name values : Text} (hn : IsUnicode name) (hv : IsUnicode values)
    (start duration : Decimal) : IsUnicode (animate name values start duration) := by
  simp [animate, hn, hv]

theorem isUnicode_escapeMarkup {t : Text} : IsUnicode t.escapeMarkup ↔ IsUnicode t := by
  rw [Text.escapeMarkup, isUnicode_flatMap]
  refine forall₂_congr fun c _ => ?_
  rw [CodePoint.escapeMarkup]
  repeat' split
  all_goals simp_all

theorem isUnicode_zipWith {f : Text → Text → Text}
    (hf : ∀ s t, IsUnicode s → IsUnicode t → IsUnicode (f s t)) {l u : List Text}
    (hl : ∀ s ∈ l, IsUnicode s) (hu : ∀ t ∈ u, IsUnicode t) :
    ∀ t ∈ List.zipWith f l u, IsUnicode t := by
  rw [← List.map_uncurry_zip_eq_zipWith]
  refine List.forall_mem_map.mpr fun x hx => ?_
  obtain ⟨hs, ht⟩ := List.of_mem_zip (a := x.1) (b := x.2) hx
  exact hf x.1 x.2 (hl _ hs) (hu _ ht)

theorem isUnicode_outline {h : Highlight} {animation : Text} {r : Rect}
    (hcolor : IsUnicode h.color) (hthickness : IsUnicode h.thickness)
    (hanimation : IsUnicode animation) (hr : IsUnicode r.source) :
    IsUnicode (h.outline animation r) := by
  have hgeometry := isUnicode_flatten.mpr <|
    isUnicode_zipWith (f := fun name value => name ++ value ++ "\"")
      (l := [" x=\"", " y=\"", " width=\"", " height=\""]) (fun s t hs ht => by simp [hs, ht])
      (by simp) (isUnicode_components hr)
  simp only [Highlight.outline, Highlight.cornerRadius, isUnicode_append, isUnicode_ofString,
    isUnicode_escapeMarkup, hcolor, hthickness, hanimation, hgeometry, and_self]

end Directive

/-- The markup of a focus can be written to a file. -/
theorem isUnicode_compileFocus {t flow m : Text} (h : compileFocus t flow = .ok m) :
    IsUnicode m := by
  obtain ⟨focus, d, hread, _, _, rfl⟩ := compileFocus_eq_ok.mp h
  obtain ⟨_, _, _, _, hrects, _⟩ := Directive.Focus.parse_eq_ok hread
  refine Directive.isUnicode_animate (by simp) ((isUnicode_join (by simp)).mpr ?_) _ _
  exact List.forall_mem_map.mpr fun r hr =>
    Directive.isUnicode_viewBox (Directive.Rect.isUnicode_of_parseList hrects r hr)

/-- The markup of a highlight can be written to a file. -/
theorem isUnicode_compileHighlight {t flow m : Text} (h : compileHighlight t flow = .ok m) :
    IsUnicode m := by
  obtain ⟨highlight, d, hread, hcolor, _, _, rfl⟩ := compileHighlight_eq_ok.mp h
  obtain ⟨_, _, _, _, hrects, ⟨_, hthickness⟩, hopacities, _⟩ := Directive.Highlight.parse_eq_ok hread
  refine isUnicode_flatMap.mpr fun r hr => ?_
  exact Directive.isUnicode_outline (any_isSurrogate_eq_false.mp hcolor) hthickness.isUnicode
    (Directive.isUnicode_animate (by simp) hopacities.isUnicode _ _)
    (Directive.Rect.isUnicode_of_parseList hrects r hr)

end SvgDeck
