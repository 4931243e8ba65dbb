/-
What decimals stand for.

`Decimal.value` is the number that a decimal stands for.  A difference has the value of the exact
difference of its operands within bounds that follow from the exponent limits:

* `minus?_eq_none` — there is no difference exactly if it would be too large;
* `isBelowZero_minus?` — the difference is below zero if the exact one is, unless that is so small
  that it is rounded to zero;
* `exists_minus?_value_iff` — it is the exact difference if that is not too large and none of its
  digits is too small.
-/
import SvgDeck.Number.Decimal
import Mathlib.Algebra.Order.Field.Power
import Mathlib.Data.Rat.Cast.Order
import Mathlib.Tactic.Linarith
import Mathlib.Tactic.Positivity
import Mathlib.Tactic.Ring

namespace SvgDeck.Decimal

variable {a b d r : Decimal} {k precision : Int}

/-- The number that a decimal stands for. -/
def value (d : Decimal) : ℚ :=
  (if d.negative then -(d.coefficient : ℚ) else d.coefficient) * 10 ^ d.exponent

theorem ten_zpow_pos (k : Int) : (0 : ℚ) < 10 ^ k := zpow_pos (by decide +kernel) k

theorem ten_zpow_eq_mul {j : Int} (h : j ≤ k) :
    (10 : ℚ) ^ k = (10 ^ (k - j).toNat : Nat) * 10 ^ j := by
  rw [Nat.cast_pow, Nat.cast_ofNat, ← zpow_natCast, Int.toNat_of_nonneg (Int.sub_nonneg_of_le h),
    ← zpow_add₀ (by decide +kernel), Int.sub_add_cancel]

theorem abs_value (d : Decimal) : |d.value| = d.coefficient * 10 ^ d.exponent := by
  rw [value, abs_mul, abs_of_pos (ten_zpow_pos _)]
  split
  · rw [abs_neg, Nat.abs_cast]
  · rw [Nat.abs_cast]

theorem value_eq_abs (d : Decimal) : d.value = if d.negative then -|d.value| else |d.value| := by
  rw [abs_value, value]
  split
  · rw [neg_mul]
  · rfl

theorem value_eq_zero : d.value = 0 ↔ d.coefficient = 0 := by
  rw [← abs_eq_zero, abs_value, mul_eq_zero, Nat.cast_eq_zero]
  exact or_iff_left (ten_zpow_pos _).ne'

theorem isBelowZero_iff : d.isBelowZero = true ↔ d.value < 0 := by
  have hpos := ten_zpow_pos d.exponent
  rw [isBelowZero, Bool.and_eq_true, bne_iff_ne, value, mul_neg_iff]
  simp only [hpos, hpos.not_gt, and_false, false_or, and_true]
  by_cases hn : d.negative = true
  · simp [hn, Nat.pos_iff_ne_zero]
  · simp [hn]

/-- The coefficient at a smaller exponent stands for the same number. -/
theorem scaled_mul (h : k ≤ d.exponent) : (d.scaled k : ℚ) * 10 ^ k = d.value := by
  rw [scaled, value, ten_zpow_eq_mul h, Nat.pow_eq]
  split
  · push_cast
    ring
  · push_cast
    ring

/-- A whole number at an exponent. -/
theorem value_natAbs {negative : Bool} {n : Int} (h : n ≠ 0 → negative = decide (n < 0)) :
    value ⟨negative, n.natAbs, k⟩ = n * 10 ^ k := by
  by_cases hn : n = 0
  · simp [value, hn]
  · rw [value, h hn]
    rcases lt_or_gt_of_ne hn with hneg | hpos
    · simp [hneg, Nat.cast_natAbs, abs_of_neg hneg]
    · simp [hpos.le, Nat.cast_natAbs, abs_of_pos hpos]

/-! ### Bounds -/

theorem length_digits_pos (d : Decimal) : 0 < d.digits.length := by
  rw [digits, Text.ofNat, Text.ofNatBase, List.length_map]
  exact Nat.length_toDigits_pos

theorem length_digits_le_iff {n : Nat} (hn : 0 < n) :
    d.digits.length ≤ n ↔ d.coefficient < 10 ^ n := by
  rw [digits, Text.ofNat, Text.ofNatBase, List.length_map]
  exact Nat.length_toDigits_le_iff (by decide) hn

/-- The first digit tells how large a number is. -/
theorem lt_adjusted_iff (h : d.coefficient ≠ 0) : k < d.adjusted ↔ 10 ^ (k + 1) ≤ |d.value| := by
  have hsplit : (10 : ℚ) ^ (k + 1) = 10 ^ (k + 1 - d.exponent) * 10 ^ d.exponent := by
    rw [← zpow_add₀ (by decide +kernel), Int.sub_add_cancel]
  rw [abs_value, hsplit, mul_le_mul_iff_left₀ (ten_zpow_pos _), adjusted]
  have hlength := length_digits_pos d
  rcases le_or_gt (k + 1 - d.exponent) 0 with hm | hm
  · refine iff_of_true (by omega) ?_
    have hone : (10 : ℚ) ^ (k + 1 - d.exponent) ≤ 1 := zpow_le_one_of_nonpos₀ (by decide +kernel) hm
    exact hone.trans (Nat.one_le_cast.mpr (Nat.pos_of_ne_zero h))
  · obtain ⟨n, hn⟩ := Int.eq_ofNat_of_zero_le hm.le
    have hle := length_digits_le_iff (d := d) (n := n) (by omega)
    rw [hn, zpow_natCast]
    have hcast : (10 : ℚ) ^ n ≤ d.coefficient ↔ 10 ^ n ≤ d.coefficient := by
      exact_mod_cast Iff.rfl
    rw [hcast, ← not_lt, ← hle]
    omega

/-- The exponent of the last digit that a result with `precision` digits can have. -/
def lastExponent (precision : Int) : Int := -exponentLimit - precision + 1

theorem bounded?_eq_none :
    bounded? precision d = none ↔ 10 ^ (exponentLimit + 1) ≤ |d.value| := by
  rw [bounded?]
  by_cases hzero : d.coefficient = 0
  · rw [if_pos hzero, value_eq_zero.mpr hzero, abs_zero]
    exact iff_of_false (by simp) (ten_zpow_pos _).not_ge
  · rw [if_neg hzero, ← lt_adjusted_iff hzero]
    by_cases hlarge : exponentLimit < d.adjusted
    · rw [if_pos hlarge]
      exact iff_of_true rfl hlarge
    · rw [if_neg hlarge]
      refine iff_of_false ?_ hlarge
      split <;> simp

/-- How a result within bounds comes about: from a zero, by rounding, or as it is. -/
theorem cases_of_bounded? (h : bounded? precision d = some r) :
    (d.coefficient = 0 ∧ r.coefficient = 0) ∨
    (d.coefficient ≠ 0 ∧ d.exponent < lastExponent precision ∧ r = ⟨d.negative,
      dropDigits d.coefficient (lastExponent precision - d.exponent).toNat,
      lastExponent precision⟩) ∨
    (d.coefficient ≠ 0 ∧ lastExponent precision ≤ d.exponent ∧ r = d) := by
  rw [bounded?, ← lastExponent] at h
  by_cases hzero : d.coefficient = 0
  · rw [if_pos hzero, Option.some.injEq] at h
    exact Or.inl ⟨hzero, by rw [← h]; exact hzero⟩
  · rw [if_neg hzero] at h
    refine Or.inr ?_
    split at h
    · cases h
    · by_cases hleast : d.exponent < lastExponent precision
      · rw [if_pos hleast] at h
        exact Or.inl ⟨hzero, hleast, (Option.some.inj h).symm⟩
      · rw [if_neg hleast] at h
        exact Or.inr ⟨hzero, not_lt.mp hleast, (Option.some.inj h).symm⟩

/-- What is at most half a unit is rounded to zero. -/
theorem dropDigits_eq_zero {n count : Nat} : dropDigits n count = 0 ↔ 2 * n ≤ 10 ^ count := by
  have hpos : 0 < 10 ^ count := Nat.pow_pos (by decide)
  simp only [dropDigits, Nat.pow_eq]
  generalize 10 ^ count = unit at hpos
  rcases Nat.lt_or_ge n unit with hn | hn
  · rw [Nat.div_eq_of_lt hn, Nat.mod_eq_of_lt hn]
    split <;> omega
  · have hkept : 0 < n / unit := Nat.div_pos hn hpos
    refine iff_of_false ?_ (by omega)
    split <;> omega

theorem half_lt_abs_iff (h : d.exponent < k) :
    10 ^ k < 2 * |d.value| ↔ 10 ^ (k - d.exponent).toNat < 2 * d.coefficient := by
  rw [abs_value, ten_zpow_eq_mul h.le, ← mul_assoc, mul_lt_mul_iff_left₀ (ten_zpow_pos _)]
  exact_mod_cast Iff.rfl

/-- What has no digit below an exponent is at least a whole unit of it. -/
theorem half_lt_abs_of_le (h : k ≤ d.exponent) (hzero : d.coefficient ≠ 0) :
    10 ^ k < 2 * |d.value| := by
  have hone : (1 : ℚ) ≤ d.coefficient := Nat.one_le_cast.mpr (Nat.pos_of_ne_zero hzero)
  have hpow : (10 : ℚ) ^ k ≤ 10 ^ d.exponent := zpow_le_zpow_right₀ (by decide +kernel) h
  have hpos := ten_zpow_pos k
  have hunit : (10 : ℚ) ^ d.exponent ≤ |d.value| := by
    rw [abs_value]
    exact le_mul_of_one_le_left (ten_zpow_pos _).le hone
  linarith

/-- A result within bounds is below zero if it was before, and is not rounded to zero. -/
theorem isBelowZero_bounded? (h : bounded? precision d = some r) :
    r.isBelowZero = true ↔ d.value < 0 ∧ 10 ^ lastExponent precision < 2 * |d.value| := by
  rcases cases_of_bounded? h with ⟨hd, hr⟩ | ⟨hd, hleast, rfl⟩ | ⟨hd, hleast, rfl⟩
  · rw [isBelowZero_iff, value_eq_zero.mpr hd, value_eq_zero.mpr hr]
    simp
  · rw [half_lt_abs_iff hleast, ← isBelowZero_iff, isBelowZero, isBelowZero]
    simp [hd, dropDigits_eq_zero]
  · rw [isBelowZero_iff, iff_self_and]
    exact fun _ => half_lt_abs_of_le hleast hd

/-- The digits that are dropped may be zeros. -/
theorem dropDigits_mul (n count : Nat) : dropDigits (n * 10 ^ count) count = n := by
  have hpos : 0 < 10 ^ count := Nat.pow_pos (by decide)
  simp only [dropDigits, Nat.pow_eq, Nat.mul_mod_left, Nat.mul_div_cancel n hpos]
  rw [if_pos (Or.inl (by omega))]

/-- A number is a whole multiple of the unit at an exponent. -/
def IsOnGrid (q : ℚ) (k : Int) : Prop := ∃ n : ℤ, q = n * 10 ^ k

theorem isOnGrid_of_le (h : k ≤ d.exponent) : IsOnGrid d.value k := ⟨d.scaled k, (scaled_mul h).symm⟩

/-- On a coarser grid the coefficient ends in zeros. -/
theorem coefficient_eq_mul (h : d.exponent ≤ k) {n : ℤ} (hn : d.value = n * 10 ^ k) :
    d.coefficient = n.natAbs * 10 ^ (k - d.exponent).toNat := by
  have habs : (d.coefficient : ℚ) * 10 ^ d.exponent =
      (n.natAbs * 10 ^ (k - d.exponent).toNat : Nat) * 10 ^ d.exponent := by
    rw [← abs_value, hn, abs_mul, abs_of_pos (ten_zpow_pos k), ten_zpow_eq_mul h, Nat.cast_mul,
      mul_assoc, Nat.cast_natAbs, Int.cast_abs]
  exact_mod_cast mul_right_cancel₀ (ten_zpow_pos _).ne' habs

/-- **A result keeps its value within bounds** exactly if it is not too large and has no digit
behind the last one that it can have. -/
theorem exists_bounded?_value_iff :
    (∃ r, bounded? precision d = some r ∧ r.value = d.value) ↔
      |d.value| < 10 ^ (exponentLimit + 1) ∧ IsOnGrid d.value (lastExponent precision) := by
  rw [← not_le, ← @bounded?_eq_none d precision]
  constructor
  · rintro ⟨r, hr, hvalue⟩
    refine ⟨by simp [hr], ?_⟩
    rw [← hvalue]
    rcases cases_of_bounded? hr with ⟨_, hzero⟩ | ⟨_, _, rfl⟩ | ⟨_, hleast, rfl⟩
    · exact ⟨0, by rw [value_eq_zero.mpr hzero, Int.cast_zero, zero_mul]⟩
    · exact isOnGrid_of_le le_rfl
    · exact isOnGrid_of_le hleast
  · rintro ⟨hnone, n, hn⟩
    obtain ⟨r, hr⟩ := Option.ne_none_iff_exists'.mp hnone
    refine ⟨r, hr, ?_⟩
    rcases cases_of_bounded? hr with ⟨hd, hzero⟩ | ⟨_, hlt, rfl⟩ | ⟨_, _, rfl⟩
    · rw [value_eq_zero.mpr hzero, value_eq_zero.mpr hd]
    · -- Only zeros are dropped, so the rounded coefficient stands for the same number.
      have hc := coefficient_eq_mul hlt.le hn
      rw [hc, dropDigits_mul, value, value, hc, ten_zpow_eq_mul hlt.le]
      split
      · push_cast
        ring
      · push_cast
        ring
    · rfl

/-- What is at most half of the last unit is rounded to zero. -/
theorem value_bounded?_eq_zero (h : bounded? precision d = some r)
    (hsmall : 2 * |d.value| ≤ 10 ^ lastExponent precision) : r.value = 0 := by
  rcases cases_of_bounded? h with ⟨_, hr⟩ | ⟨_, hleast, rfl⟩ | ⟨hd, hleast, rfl⟩
  · exact value_eq_zero.mpr hr
  · refine value_eq_zero.mpr (dropDigits_eq_zero.mpr ?_)
    rwa [← not_lt, half_lt_abs_iff hleast, not_lt] at hsmall
  · exact absurd (half_lt_abs_of_le hleast hd) hsmall.not_gt

/-- A result within bounds has the sign that it had before. -/
theorem negative_bounded? (h : bounded? precision d = some r) : r.negative = d.negative := by
  rw [bounded?] at h
  split_ifs at h
  all_goals cases h; rfl

/-! ### Differences -/

/-- A difference is an exact one within bounds. -/
theorem exists_minus? (a b : Decimal) :
    ∃ d : Decimal, d.value = a.value - b.value ∧ d.exponent = min a.exponent b.exponent ∧
      a.minus? b = bounded? (differencePrecision a b) d := by
  refine ⟨_, ?_, ?_, rfl⟩
  · rw [value_natAbs, Int.cast_sub, sub_mul, scaled_mul (min_le_left ..), scaled_mul (min_le_right ..)]
    intro hne
    refine if_neg ?_
    rintro ⟨ha, hb⟩
    simp [scaled, ha, hb] at hne
  · rfl

theorem minus?_eq_none : a.minus? b = none ↔ 10 ^ (exponentLimit + 1) ≤ |a.value - b.value| := by
  obtain ⟨d, hd, _, h⟩ := exists_minus? a b
  rw [h, bounded?_eq_none, hd]

theorem isBelowZero_minus? (h : a.minus? b = some r) :
    r.isBelowZero = true ↔ a.value < b.value ∧
      10 ^ lastExponent (differencePrecision a b) < 2 * |a.value - b.value| := by
  obtain ⟨d, hd, _, h'⟩ := exists_minus? a b
  rw [isBelowZero_bounded? (h'.symm.trans h), hd, sub_neg]

theorem value_minus?_eq_zero (h : a.minus? b = some r)
    (hsmall : 2 * |a.value - b.value| ≤ 10 ^ lastExponent (differencePrecision a b)) :
    r.value = 0 := by
  obtain ⟨d, hd, _, h'⟩ := exists_minus? a b
  exact value_bounded?_eq_zero (h'.symm.trans h) (hd ▸ hsmall)

/-- A difference has a minus sign if the exact one is below zero, rounded or not. -/
theorem negative_minus? (h : a.minus? b = some r) (ha : a.negative = false) :
    r.negative = true ↔ a.value < b.value := by
  have hpos := ten_zpow_pos (min a.exponent b.exponent)
  have hscaled : a.value < b.value ↔
      a.scaled (min a.exponent b.exponent) < b.scaled (min a.exponent b.exponent) := by
    rw [← scaled_mul (min_le_left a.exponent b.exponent),
      ← scaled_mul (min_le_right a.exponent b.exponent), mul_lt_mul_iff_left₀ hpos, Int.cast_lt]
  rw [minus?] at h
  rw [negative_bounded? h, hscaled]
  by_cases hzero : a.coefficient = 0 ∧ b.coefficient = 0
  · simp [hzero, ha, scaled]
  · simp [if_neg hzero, sub_neg]

/-- **A difference is exact** if it is not too large and has no digit that is too small. -/
theorem exists_minus?_value_iff :
    (∃ r, a.minus? b = some r ∧ r.value = a.value - b.value) ↔
      |a.value - b.value| < 10 ^ (exponentLimit + 1) ∧
        IsOnGrid (a.value - b.value) (lastExponent (differencePrecision a b)) := by
  obtain ⟨d, hd, _, h⟩ := exists_minus? a b
  rw [h, ← hd]
  exact exists_bounded?_value_iff

end SvgDeck.Decimal
