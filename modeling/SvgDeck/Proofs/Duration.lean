/-
How long animations run.

The times of a directive are exact, and so is their difference, within the bounds that decimals
have: the places from the first digit of the times to the last must not be more than an operation
can be carried out with, the difference must not be too large, and it must have no digit behind the
last one that a result can have.

* `Timing.exists_duration?_iff` — the duration is the exact difference exactly within these bounds;
* `Timing.isExact_of_short` — times with tokens of up to a million code points are within them.
-/
import SvgDeck.Proofs.Numeral

namespace SvgDeck.Directive

/-! ### Exact durations -/

namespace Timing

variable {t : Timing} {d : Decimal}

/-- The bounds within which the duration is the exact difference of the times. -/
structure IsExact (t : Timing) : Prop where
  places : Decimal.differencePrecision t.stop t.start ≤ Decimal.precisionLimit
  size : |t.stop.value - t.start.value| < 10 ^ (Decimal.exponentLimit + 1)
  grid : Decimal.IsOnGrid (t.stop.value - t.start.value)
    (Decimal.lastExponent (Decimal.differencePrecision t.stop t.start))

theorem isTooWide_eq_false :
    t.isTooWide = false ↔ Decimal.differencePrecision t.stop t.start ≤ Decimal.precisionLimit := by
  rw [isTooWide, decide_eq_false_iff_not, not_lt]

theorem duration?_eq_some :
    t.duration? = some d ↔ t.isTooWide = false ∧ t.stop.minus? t.start = some d := by
  rw [duration?]
  cases t.isTooWide <;> simp

/-- **The duration is the exact difference** of the times exactly within the bounds. -/
theorem exists_duration?_iff :
    (∃ d, t.duration? = some d ∧ d.value = t.stop.value - t.start.value) ↔ t.IsExact := by
  simp only [duration?_eq_some, isTooWide_eq_false, and_assoc, exists_and_left,
    Decimal.exists_minus?_value_iff]
  exact ⟨fun ⟨places, size, grid⟩ => ⟨places, size, grid⟩, fun h => ⟨h.places, h.size, h.grid⟩⟩

/-- A duration has a minus sign if the end is before the start, rounded to zero or not. -/
theorem negative_duration? (h : t.duration? = some d) (hstop : t.stop.negative = false) :
    d.negative = true ↔ t.stop.value < t.start.value :=
  Decimal.negative_minus? (duration?_eq_some.mp h).2 hstop

/-- Within the bounds there is a duration, and no other than the exact one. -/
theorem IsExact.value (h : t.IsExact) (hd : t.duration? = some d) :
    d.value = t.stop.value - t.start.value := by
  obtain ⟨d', hd', hvalue⟩ := exists_duration?_iff.mpr h
  cases hd.symm.trans hd'
  exact hvalue

end Timing

/-! ### Short tokens -/

/-- The length up to which a number is in the range of exponents. -/
def shortLength : Nat := 1000000

theorem exponent_of_readNumber {start : Nat} {t : Text} {d : Decimal}
    (h : readNumber start t = .ok d) : -(t.length : Int) ≤ d.exponent ∧ d.exponent ≤ 0 := by
  obtain ⟨n, _, rfl, rfl⟩ := exists_numeral_of_readNumber h
  rw [Decimal.ofNumeral]
  split
  · simp
  · next f hf =>
    simp only [Numeral.text, hf, List.length_append, List.length_cons]
    omega

/-- Numbers are written without a sign. -/
theorem negative_of_readNumber {start : Nat} {t : Text} {d : Decimal}
    (h : readNumber start t = .ok d) : d.negative = false := by
  obtain ⟨n, _, _, rfl⟩ := exists_numeral_of_readNumber h
  rw [Decimal.ofNumeral]
  split <;> rfl

theorem Timing.negative_of_parse {start stop : Text} {t : Timing}
    (h : Timing.parse start stop = .ok t) : t.start.negative = false ∧ t.stop.negative = false := by
  obtain ⟨a, ha, h⟩ := bind_eq_ok.mp h
  obtain ⟨b, hb, h⟩ := bind_eq_ok.mp h
  cases h
  exact ⟨negative_of_readNumber (inToken_eq_ok.mp ha), negative_of_readNumber (inToken_eq_ok.mp hb)⟩

/-- The first digit of a number stands no further in front than its token is long. -/
theorem adjusted_le {d : Decimal} {n : Nat} (he : d.exponent ≤ 0) (h : |d.value| < 10 ^ n) :
    d.adjusted ≤ n := by
  by_cases hzero : d.coefficient = 0
  · have hlength : d.digits.length = 1 := by rw [Decimal.digits, hzero]; rfl
    rw [Decimal.adjusted, hlength]
    omega
  · refine not_lt.mp fun hlt => ?_
    have hle := (Decimal.lt_adjusted_iff hzero).mp hlt
    have hpow : (10 : ℚ) ^ n ≤ 10 ^ ((n : Int) + 1) := by
      rw [← zpow_natCast]
      exact zpow_le_zpow_right₀ (by norm_num) (by omega)
    exact h.not_ge (hpow.trans hle)

/-- Times with short tokens have an exact difference. -/
theorem Timing.isExact_of_short {start stop : Text} {t : Timing}
    (h : Timing.parse start stop = .ok t) (hstart : start.length ≤ shortLength)
    (hstop : stop.length ≤ shortLength) : t.IsExact := by
  obtain ⟨a, ha, h⟩ := bind_eq_ok.mp h
  obtain ⟨b, hb, h⟩ := bind_eq_ok.mp h
  cases h
  obtain ⟨ha0, halt⟩ := (parseNumber_eq_ok ha).bounds
  obtain ⟨hb0, hblt⟩ := (parseNumber_eq_ok hb).bounds
  obtain ⟨hea, hea0⟩ := exponent_of_readNumber (inToken_eq_ok.mp ha)
  obtain ⟨heb, heb0⟩ := exponent_of_readNumber (inToken_eq_ok.mp hb)
  have hada := adjusted_le hea0 (by rwa [abs_of_nonneg ha0])
  have hadb := adjusted_le heb0 (by rwa [abs_of_nonneg hb0])
  rw [shortLength] at hstart hstop
  constructor
  case places =>
    show Decimal.differencePrecision b a ≤ _
    rw [Decimal.differencePrecision, Decimal.precisionLimit]
    omega
  case size =>
    have hpow : ∀ n ≤ 1000000, (10 : ℚ) ^ n ≤ 10 ^ 1000000 := fun n hn =>
      pow_le_pow_right₀ (by norm_num) hn
    have hlimit : Decimal.exponentLimit + 1 = (1000000 : Nat) := by decide
    rw [hlimit, zpow_natCast]
    exact abs_sub_lt_of_nonneg_of_lt hb0 (hblt.trans_le (hpow _ hstop)) ha0
      (halt.trans_le (hpow _ hstart))
  case grid =>
    -- The last digit of a result is well behind the last digit of a short number.
    obtain ⟨d, hd, he, _⟩ := Decimal.exists_minus? b a
    rw [← hd]
    refine Decimal.isOnGrid_of_le ?_
    rw [he, Decimal.lastExponent, Decimal.differencePrecision, Decimal.exponentLimit]
    omega

end SvgDeck.Directive
