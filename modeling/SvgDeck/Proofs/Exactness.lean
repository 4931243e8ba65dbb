/-
Times in markup.

What markup shows as begin and duration are numbers that read back exactly: the begin is the start
that is written in the directive, and begin and duration add up to the end as far as the duration
is exact.

* `timing_exact` — the durations that are exact, how all numbers of seconds are shown, and what a
  compiled focus or highlight shows;
* `faintTiming_not_exact` — times whose duration is rounded away.
-/
import SvgDeck.Proofs.Directives
import SvgDeck.Proofs.Seconds

namespace SvgDeck

open Directive

namespace Directive

variable {t : Timing} {d : Decimal} {begins lasts : Text}

/-- The animation element with the texts for its values and its times. -/
def animation (name values begins lasts : Text) : Text :=
  "<animate attributeName=\"" ++ name ++ "\" values=\"" ++ values ++ "\" begin=\"" ++ begins ++
    "\" dur=\"" ++ lasts ++ "\" fill=\"freeze\"/>"

theorem animate_eq (name values : Text) (start duration : Decimal) :
    animate name values start duration =
      animation name values (formatSeconds start) (formatSeconds duration) := rfl

/-- The texts show the times: the begin reads as the start, and the duration as the difference, so
that both add up to the end, if the difference is within bounds. -/
structure Timing.IsShown (t : Timing) (begins lasts : Text) : Prop where
  start : ∀ q, Shows begins q ↔ q = t.start.value
  duration : (∀ q, Shows lasts q ↔ q = t.stop.value - t.start.value) ↔ t.IsExact
  stop : (∀ p q, Shows begins p → Shows lasts q → p + q = t.stop.value) ↔ t.IsExact

theorem Timing.isExact_iff (h : t.duration? = some d) :
    t.IsExact ↔ d.value = t.stop.value - t.start.value := by
  rw [← Timing.exists_duration?_iff, h]
  simp

theorem Timing.isShown (h : t.duration? = some d) :
    t.IsShown (formatSeconds t.start) (formatSeconds d) := by
  constructor
  case start => exact fun q => shows_formatSeconds_iff
  case duration =>
    simp only [shows_formatSeconds_iff, Timing.isExact_iff h]
    exact ⟨fun hq => (hq _).mp rfl, fun hd q => by rw [hd]⟩
  case stop =>
    simp only [shows_formatSeconds_iff, Timing.isExact_iff h]
    constructor
    · intro hq
      linarith [hq _ _ rfl rfl]
    · rintro hd _ _ rfl rfl
      linarith

end Directive

/-! ### Compiled directives -/

section Compiled

variable {text flow m : Text}

/-- Compiled, a focus shows its times. -/
theorem exists_animation_of_focus (h : compileFocus text flow = .ok m) :
    ∃ focus begins lasts, IsFocus text focus.timing.start.value focus.timing.stop.value ∧
      Focus.parse text = .ok focus ∧ focus.timing.IsShown begins lasts ∧
      m = animation "viewBox" (Text.join ";" (focus.keyframes.map Rect.viewBox)) begins lasts := by
  obtain ⟨focus, d, hparse, hd, _, rfl⟩ := compileFocus_eq_ok.mp h
  refine ⟨focus, _, _, (isFocus_iff hparse).mpr ⟨rfl, rfl⟩, hparse, Timing.isShown hd, ?_⟩
  rw [Focus.markup, animate_eq]

/-- Compiled, a highlight shows its times in each of its outlines. -/
theorem exists_animation_of_highlight (h : compileHighlight text flow = .ok m) :
    ∃ highlight begins lasts,
      IsHighlight text highlight.timing.start.value highlight.timing.stop.value ∧
      Highlight.parse text = .ok highlight ∧ highlight.timing.IsShown begins lasts ∧
      m = highlight.rects.flatMap
        (highlight.outline (animation "stroke-opacity" highlight.opacities begins lasts)) := by
  obtain ⟨highlight, d, hparse, _, hd, _, rfl⟩ := compileHighlight_eq_ok.mp h
  refine ⟨highlight, _, _, (isHighlight_iff hparse).mpr ⟨rfl, rfl⟩, hparse, Timing.isShown hd, ?_⟩
  rw [Highlight.markup, animate_eq]

end Compiled

/-- **Times are exact** within the bounds of durations: the duration is the difference of the times,
every number of seconds is shown with its value, and what compiles shows its start, and its end as
begin and duration. -/
theorem timing_exact (t : Timing) (v : Decimal) (text flow : Text) :
    ((∃ d, t.duration? = some d ∧ d.value = t.stop.value - t.start.value) ↔ t.IsExact) ∧
    (∀ q, Shows (formatSeconds v) q ↔ q = v.value) ∧
    (∀ m, compileFocus text flow = .ok m → ∃ focus begins lasts,
      IsFocus text focus.timing.start.value focus.timing.stop.value ∧
      Focus.parse text = .ok focus ∧ focus.timing.IsShown begins lasts ∧
      m = animation "viewBox" (Text.join ";" (focus.keyframes.map Rect.viewBox)) begins lasts) ∧
    (∀ m, compileHighlight text flow = .ok m → ∃ highlight begins lasts,
      IsHighlight text highlight.timing.start.value highlight.timing.stop.value ∧
      Highlight.parse text = .ok highlight ∧ highlight.timing.IsShown begins lasts ∧
      m = highlight.rects.flatMap
        (highlight.outline (animation "stroke-opacity" highlight.opacities begins lasts))) ∧
    ∀ start stop, Timing.parse start stop = .ok t → start.length ≤ shortLength →
      stop.length ≤ shortLength → t.IsExact :=
  ⟨Timing.exists_duration?_iff, fun _ => shows_formatSeconds_iff,
    fun _ => exists_animation_of_focus, fun _ => exists_animation_of_highlight,
    fun _ _ => Timing.isExact_of_short⟩

/-- Start and end of the outlines of `spotlight`. -/
def spotlightTiming : Timing := ⟨⟨false, 1, 0⟩, ⟨false, 3, 0⟩⟩

theorem timing_exact_spotlight :
    spotlightTiming.IsExact ∧
      (∃ d, spotlightTiming.duration? = some d ∧ d.value = 3 - 1) ∧
      (∃ m focus begins lasts, compileFocus zoom "a__1" = .ok m ∧
        Focus.parse zoom = .ok focus ∧ focus.timing.IsShown begins lasts) ∧
      ∃ m highlight begins lasts, compileHighlight spotlight "a__1" = .ok m ∧
        Highlight.parse spotlight = .ok highlight ∧ highlight.timing.IsShown begins lasts := by
  obtain ⟨hduration, _, hfocus, _, hshort⟩ := timing_exact spotlightTiming ⟨false, 0, 0⟩ zoom "a__1"
  obtain ⟨_, _, _, hhighlight, _⟩ := timing_exact spotlightTiming ⟨false, 0, 0⟩ spotlight "a__1"
  have hexact : spotlightTiming.IsExact := hshort (Text.ofString "1") (Text.ofString "3") rfl
    (by decide) (by decide)
  obtain ⟨m, hm⟩ := exists_of_isOk (x := compileFocus zoom "a__1") (by decide +kernel)
  obtain ⟨m', hm'⟩ := exists_of_isOk (x := compileHighlight spotlight "a__1") (by decide +kernel)
  refine ⟨hexact, ?_, ?_, ?_⟩
  · obtain ⟨d, hd, hvalue⟩ := hduration.mpr hexact
    refine ⟨d, hd, ?_⟩
    rw [hvalue]
    norm_num [spotlightTiming, Decimal.value]
  · obtain ⟨focus, begins, lasts, _, hparse, hshown, _⟩ := hfocus m hm
    exact ⟨m, focus, begins, lasts, hm, hparse, hshown⟩
  · obtain ⟨highlight, begins, lasts, _, hparse, hshown, _⟩ := hhighlight m' hm'
    exact ⟨m', highlight, begins, lasts, hm', hparse, hshown⟩

/-! ### Faint durations -/

section Faint

variable {n digit : Nat}

/-- A start at zero and an end at a digit, both written with `n` zeros before the last digit. -/
def faintTiming (n digit : Nat) : Timing :=
  ⟨⟨false, 0, -(n + 1 : Nat)⟩, ⟨false, digit, -(n + 1 : Nat)⟩⟩

theorem value_faintTiming (n digit : Nat) :
    (faintTiming n digit).stop.value - (faintTiming n digit).start.value =
      digit * 10 ^ (-(n + 1 : Nat) : Int) := by
  simp [faintTiming, Decimal.value]

theorem differencePrecision_faintTiming (n : Nat) (h : digit < 10) :
    Decimal.differencePrecision (faintTiming n digit).stop (faintTiming n digit).start = 28 := by
  have hlength : ∀ k < 10, (Text.ofNat k).length = 1 := by decide
  simp only [Decimal.differencePrecision, Decimal.adjusted, Decimal.digits, faintTiming,
    hlength digit h, hlength 0 (by decide)]
  omega

/-- A unit behind the last digit that a duration can have is not on its grid. -/
theorem not_isExact_faintTiming (hn : 1000026 ≤ n) : ¬ (faintTiming n 1).IsExact := by
  intro h
  obtain ⟨k, hk⟩ := h.grid
  rw [differencePrecision_faintTiming n (by decide), value_faintTiming, Nat.cast_one, one_mul,
    Decimal.lastExponent, Decimal.exponentLimit, ← div_eq_iff (Decimal.ten_zpow_pos _).ne',
    ← zpow_sub₀ (by norm_num)] at hk
  -- The quotient lies between zero and one, so it is no whole number.
  have hpos : (0 : ℚ) < k := hk ▸ Decimal.ten_zpow_pos _
  have hlt : (k : ℚ) < 1 := hk ▸ zpow_lt_one_of_neg₀ (by norm_num) (by omega)
  have hk0 : 0 < k := by exact_mod_cast hpos
  have hk1 : k < 1 := by exact_mod_cast hlt
  omega

/-- The end is after the start, and the duration is not their difference. -/
theorem faintTiming_not_exact :
    ¬ ∃ d, (faintTiming 1000026 1).duration? = some d ∧
      d.value = (faintTiming 1000026 1).stop.value - (faintTiming 1000026 1).start.value := by
  rw [Timing.exists_duration?_iff]
  exact not_isExact_faintTiming le_rfl

/-- Up to half a unit of the last digit, such a duration is rounded to zero. -/
theorem exists_duration?_faintTiming (hn : 1000026 ≤ n) (hdigit : digit ≤ 5) :
    ∃ d, (faintTiming n digit).duration? = some d ∧ d.value = 0 ∧ d.negative = false := by
  have hpos := Decimal.ten_zpow_pos (-(n + 1 : Nat))
  have hprecision := differencePrecision_faintTiming n (show digit < 10 by omega)
  have hvalue := value_faintTiming n digit
  have habs : |(digit : ℚ) * 10 ^ (-(n + 1 : Nat) : Int)| = digit * 10 ^ (-(n + 1 : Nat) : Int) :=
    abs_of_nonneg (by positivity)
  have hsmall : 2 * |(digit : ℚ) * 10 ^ (-(n + 1 : Nat) : Int)| ≤ 10 ^ (-1000026 : Int) := by
    have hfive : (digit : ℚ) ≤ 5 := by exact_mod_cast hdigit
    calc 2 * |(digit : ℚ) * 10 ^ (-(n + 1 : Nat) : Int)|
        = 2 * digit * 10 ^ (-(n + 1 : Nat) : Int) := by rw [habs, mul_assoc]
      _ ≤ 10 * 10 ^ (-(n + 1 : Nat) : Int) := by gcongr; linarith
      _ = 10 ^ (1 + -(n + 1 : Nat) : Int) := by rw [zpow_add₀ (by norm_num), zpow_one]
      _ ≤ 10 ^ (-1000026 : Int) := zpow_le_zpow_right₀ (by norm_num) (by omega)
  have hwide : (faintTiming n digit).isTooWide = false := by
    rw [Timing.isTooWide_eq_false, hprecision]
    decide
  have hsome : (faintTiming n digit).stop.minus? (faintTiming n digit).start ≠ none := by
    rw [Ne, Decimal.minus?_eq_none, hvalue, not_le]
    have hlarge : (10 : ℚ) ^ (-1000026 : Int) < 10 ^ (Decimal.exponentLimit + 1) :=
      zpow_lt_zpow_right₀ (by norm_num) (by decide)
    have hnonneg := abs_nonneg ((digit : ℚ) * 10 ^ (-(n + 1 : Nat) : Int))
    linarith
  obtain ⟨d, hd⟩ := Option.ne_none_iff_exists'.mp hsome
  have hduration := Timing.duration?_eq_some.mpr ⟨hwide, hd⟩
  refine ⟨d, hduration, Decimal.value_minus?_eq_zero hd ?_, ?_⟩
  · rw [hprecision, hvalue]
    exact hsmall
  · have hnegative := Timing.negative_duration? hduration rfl
    rw [← Bool.not_eq_true, hnegative, not_lt, ← sub_nonneg, hvalue]
    positivity

end Faint

end SvgDeck
