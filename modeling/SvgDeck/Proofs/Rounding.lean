/-
Rounding to binary floating point.

`ofRatio` works on the terms of a ratio, but only the ratio counts.  Its binary logarithm gives the
unit in the last place (`unitExponent_eq`), and what is rounded is the ratio in that unit
(`roundQuotient_eq`), so `ofRatio` is a function of rational numbers (`ofRatio_eq`).  From this

* `ofDecimal_congr` — decimals of one value are rounded to the same number;
* `ofRatio_of_eq`, `ofDecimal_of_eq` — a ratio or a decimal with the value of a number is rounded to
  that number.
-/
import SvgDeck.Number.Binary64
import SvgDeck.Proofs.Decimal
import Mathlib.Algebra.Order.Floor.Semifield
import Mathlib.Data.Int.Log
import Mathlib.Data.Rat.Floor

namespace SvgDeck.Binary64

/-! ### Terms of a ratio -/

section Ratios

variable {base n d a b : Nat}

theorem unscale_snd_ne_zero (hbase : base ≠ 0) (hd : d ≠ 0) (e : Int) :
    (unscale base n d e).2 ≠ 0 := by
  rw [unscale]
  split
  · exact Nat.mul_ne_zero hd (pow_ne_zero _ hbase)
  · exact hd

/-- The terms are those of the ratio in the given unit. -/
theorem unscale_ratio (base n d : Nat) (e : Int) :
    ((unscale base n d e).1 : ℚ) / (unscale base n d e).2 = n / d / (base : ℚ) ^ e := by
  rw [unscale]
  split
  · next h =>
    obtain ⟨k, rfl⟩ := Int.eq_ofNat_of_zero_le h
    simp [Nat.pow_eq, div_div]
  · next h =>
    obtain ⟨k, hk⟩ := Int.eq_ofNat_of_zero_le (Int.le_of_lt (Int.neg_pos_of_neg (not_le.mp h)))
    obtain rfl : e = -k := by omega
    simp [Nat.pow_eq, mul_div_right_comm]

/-- The exponent of the first binary digit lies between those of the powers around the terms. -/
theorem zpow_log2_bounds (hn : n ≠ 0) (hd : d ≠ 0) :
    (2 : ℚ) ^ ((n.log2 : Int) - d.log2 - 1) ≤ n / d ∧
      (n / d : ℚ) < 2 ^ ((n.log2 : Int) - d.log2 + 1) := by
  have hnlow : (2 : ℚ) ^ (n.log2 : Int) ≤ n := by exact_mod_cast Nat.log2_self_le hn
  have hnhigh : (n : ℚ) < 2 ^ ((n.log2 : Int) + 1) := by exact_mod_cast Nat.lt_log2_self
  have hdlow : (2 : ℚ) ^ (d.log2 : Int) ≤ d := by exact_mod_cast Nat.log2_self_le hd
  have hdhigh : (d : ℚ) < 2 ^ ((d.log2 : Int) + 1) := by exact_mod_cast Nat.lt_log2_self
  have hpos : (0 : ℚ) < d := by exact_mod_cast Nat.pos_of_ne_zero hd
  have htwo : ∀ j k : Int, (2 : ℚ) ^ (j + k) = 2 ^ j * 2 ^ k := zpow_add₀ (by norm_num)
  constructor
  · rw [le_div_iff₀ hpos]
    calc (2 : ℚ) ^ ((n.log2 : Int) - d.log2 - 1) * d
        ≤ 2 ^ ((n.log2 : Int) - d.log2 - 1) * 2 ^ ((d.log2 : Int) + 1) := by gcongr
      _ = 2 ^ (n.log2 : Int) := by rw [← htwo]; congr 1; ring
      _ ≤ n := hnlow
  · rw [div_lt_iff₀ hpos]
    calc (n : ℚ) < 2 ^ ((n.log2 : Int) + 1) := hnhigh
      _ = 2 ^ ((n.log2 : Int) - d.log2 + 1) * 2 ^ (d.log2 : Int) := by
        rw [← htwo]; congr 1; ring
      _ ≤ 2 ^ ((n.log2 : Int) - d.log2 + 1) * d := by gcongr

/-- The exponent of the unit in the last of 53 bits of a ratio. -/
def unitOf (q : ℚ) : Int := max (-1074) (Int.log 2 q - 52)

theorem unitExponent_eq (hn : n ≠ 0) (hd : d ≠ 0) : unitExponent n d = unitOf (n / d) := by
  have hpos : (0 : ℚ) < n / d := by positivity
  obtain ⟨hlow, hhigh⟩ := zpow_log2_bounds hn hd
  rw [← Nat.cast_ofNat (R := ℚ), Int.zpow_le_iff_le_log (by decide) hpos] at hlow
  rw [← Nat.cast_ofNat (R := ℚ), Int.lt_zpow_iff_log_lt (by decide) hpos] at hhigh
  have hterms := unscale_ratio 2 n d ((n.log2 : Int) - d.log2)
  have hne := unscale_snd_ne_zero (n := n) (by decide : 2 ≠ 0) hd ((n.log2 : Int) - d.log2)
  rw [unitExponent, unitOf]
  simp only
  generalize unscale 2 n d ((n.log2 : Int) - d.log2) = terms at hterms hne
  obtain ⟨a, b⟩ := terms
  have hb : (0 : ℚ) < b := by exact_mod_cast Nat.pos_of_ne_zero hne
  have hle : b ≤ a ↔ (n.log2 : Int) - d.log2 ≤ Int.log 2 ((n : ℚ) / d) := by
    rw [← Int.zpow_le_iff_le_log (by decide) hpos, ← Nat.cast_le (α := ℚ), ← one_le_div hb, hterms,
      Nat.cast_ofNat, one_le_div (by positivity)]
  split
  · next h =>
    have := hle.mp h
    omega
  · next h =>
    have := mt hle.mpr h
    omega

/-- The nearest whole number, a half to even. -/
def nearest (q : ℚ) : Nat :=
  if 2 * (q - ⌊q⌋₊) < 1 ∨ (2 * (q - ⌊q⌋₊) = 1 ∧ ⌊q⌋₊ % 2 = 0) then ⌊q⌋₊ else ⌊q⌋₊ + 1

theorem roundQuotient_eq (hb : b ≠ 0) : roundQuotient a b = nearest (a / b) := by
  have hpos : (0 : ℚ) < b := by exact_mod_cast Nat.pos_of_ne_zero hb
  have hfloor : ⌊(a / b : ℚ)⌋₊ = a / b := Nat.floor_div_eq_div a b
  have hrest : 2 * ((a / b : ℚ) - (a / b : Nat)) = (2 * (a % b) : Nat) / b := by
    have hsplit : (a : ℚ) = b * (a / b : Nat) + (a % b : Nat) := by
      exact_mod_cast (Nat.div_add_mod a b).symm
    rw [Nat.cast_mul, Nat.cast_ofNat]
    field_simp
    linarith
  have hlt : ((2 * (a % b) : Nat) : ℚ) / b < 1 ↔ 2 * (a % b) < b := by
    rw [div_lt_one hpos, Nat.cast_lt]
  have heq : ((2 * (a % b) : Nat) : ℚ) / b = 1 ↔ 2 * (a % b) = b := by
    rw [div_eq_one_iff_eq hpos.ne', Nat.cast_inj]
  rw [roundQuotient, nearest, hfloor, hrest]
  simp only [hlt, heq]

theorem nearest_natCast (m : Nat) : nearest m = m := by
  rw [nearest, Nat.floor_natCast, sub_self, mul_zero, if_pos (Or.inl one_pos)]

end Ratios

/-! ### Ratios -/

section Rounding

variable {negative : Bool} {n d m : Nat} {e : Int} {q : ℚ}

/-- A significand with its unit, carried over to the next unit if it has a bit too many. -/
def carry (m : Nat) (e : Int) : Nat × Int :=
  if m = 2 * leastSignificand then (leastSignificand, e + 1) else (m, e)

/-- A positive ratio rounded, with a sign. -/
def rounded (negative : Bool) (q : ℚ) : Binary64 :=
  let (m, e) := carry (nearest (q / 2 ^ unitOf q)) (unitOf q)
  if h : IsCanonical m e then .finite negative m e h else .infinite negative

/-- **Only the ratio counts.** -/
theorem ofRatio_eq (hn : n ≠ 0) (hd : d ≠ 0) :
    ofRatio negative n d = rounded negative (n / d) := by
  have hne := unscale_snd_ne_zero (n := n) (by decide : 2 ≠ 0) hd (unitExponent n d)
  rw [ofRatio, if_neg hn, rounded, ← unitExponent_eq hn hd]
  simp only [roundQuotient_eq hne, unscale_ratio, carry, Nat.cast_ofNat]
  rfl

theorem rounded_neg (negative : Bool) (q : ℚ) :
    rounded (!negative) q = (rounded negative q).neg := by
  rw [rounded, rounded]
  simp only
  split <;> rfl

theorem unitOf_of_isCanonical (h : IsCanonical m e) (hm : m ≠ 0) : unitOf (m * 2 ^ e) = e := by
  obtain ⟨hlt, hlow, _, hfull⟩ := h
  have hpos : (0 : ℚ) < m * 2 ^ e := by positivity
  have htwo : ∀ j k : Int, (2 : ℚ) ^ (j + k) = 2 ^ j * 2 ^ k := zpow_add₀ (by norm_num)
  have hhigh : Int.log 2 ((m : ℚ) * 2 ^ e) < e + 53 := by
    rw [← Int.lt_zpow_iff_log_lt (by decide) hpos, Nat.cast_ofNat, add_comm, htwo]
    have hsmall : (m : ℚ) < 2 ^ (53 : Int) := by exact_mod_cast hlt
    gcongr
  rw [unitOf]
  rcases hfull with hfull | rfl
  · have hlog : e + 52 ≤ Int.log 2 ((m : ℚ) * 2 ^ e) := by
      rw [← Int.zpow_le_iff_le_log (by decide) hpos, Nat.cast_ofNat, add_comm, htwo]
      have hlarge : (2 : ℚ) ^ (52 : Int) ≤ m := by exact_mod_cast hfull
      gcongr
    omega
  · omega

/-- **A number is rounded to itself.** -/
theorem rounded_of_isCanonical (h : IsCanonical m e) (hm : m ≠ 0) :
    rounded negative (m * 2 ^ e) = .finite negative m e h := by
  have hq : (m * 2 ^ e / 2 ^ e : ℚ) = m := mul_div_cancel_right₀ _ (by positivity)
  have hcarry : carry m e = (m, e) := if_neg h.1.ne
  rw [rounded, unitOf_of_isCanonical h hm, hq, nearest_natCast, hcarry]
  exact dif_pos h

theorem ofRatio_of_eq (h : IsCanonical m e) (hm : m ≠ 0) (hd : d ≠ 0)
    (hq : (n / d : ℚ) = m * 2 ^ e) : ofRatio negative n d = .finite negative m e h := by
  have hn : n ≠ 0 := by
    rintro rfl
    rw [Nat.cast_zero, zero_div, eq_comm] at hq
    exact absurd hq (by positivity)
  rw [ofRatio_eq hn hd, hq, rounded_of_isCanonical h hm]

end Rounding

/-! ### Decimals -/

section Decimals

variable {c d : Decimal} {m : Nat} {e : Int}

theorem ofDecimal_eq (hd : d.coefficient ≠ 0) : ofDecimal d =
    if d.adjusted < -400 then zero d.negative else if 400 < d.adjusted then .infinite d.negative
    else rounded d.negative |d.value| := by
  have hne := unscale_snd_ne_zero (n := d.coefficient) (by decide : 10 ≠ 0) one_ne_zero
    (-d.exponent)
  have hterms := unscale_ratio 10 d.coefficient 1 (-d.exponent)
  have hnum : (unscale 10 d.coefficient 1 (-d.exponent)).1 ≠ 0 := by
    intro hzero
    rw [hzero, Nat.cast_zero, zero_div, eq_comm, div_eq_zero_iff, Nat.cast_one, div_one,
      Nat.cast_eq_zero] at hterms
    exact hterms.elim hd (Decimal.ten_zpow_pos _).ne'
  have hvalue : (d.coefficient / (1 : Nat) / (10 : Nat) ^ (-d.exponent) : ℚ) = |d.value| := by
    rw [Decimal.abs_value, Nat.cast_one, div_one, zpow_neg, div_inv_eq_mul, Nat.cast_ofNat]
  rw [ofDecimal]
  simp only [hd, false_or]
  rw [ofRatio_eq hnum hne, hterms, hvalue]

/-- Decimals of one value have their first digit at the same place. -/
theorem adjusted_congr (hc : c.coefficient ≠ 0) (hd : d.coefficient ≠ 0)
    (h : |c.value| = |d.value|) : c.adjusted = d.adjusted := by
  have hiff : ∀ k : Int, k < c.adjusted ↔ k < d.adjusted := fun k => by
    rw [Decimal.lt_adjusted_iff hc, Decimal.lt_adjusted_iff hd, h]
  have hle := mt (hiff d.adjusted).mp (lt_irrefl _)
  have hge := mt (hiff c.adjusted).mpr (lt_irrefl _)
  omega

/-- **Decimals of one value are rounded to the same number.** -/
theorem ofDecimal_congr (hd : d.coefficient ≠ 0) (hs : c.negative = d.negative)
    (h : |c.value| = |d.value|) : ofDecimal c = ofDecimal d := by
  have hc : c.coefficient ≠ 0 := by
    rwa [Ne, ← Decimal.value_eq_zero, ← abs_eq_zero, h, abs_eq_zero, Decimal.value_eq_zero]
  rw [ofDecimal_eq hc, ofDecimal_eq hd, hs, h, adjusted_congr hc hd h]

theorem ofDecimal_neg (negative : Bool) (n : Nat) (k : Int) :
    ofDecimal ⟨!negative, n, k⟩ = (ofDecimal ⟨negative, n, k⟩).neg := by
  by_cases hn : n = 0
  · rw [ofDecimal, ofDecimal, if_pos (Or.inl hn), if_pos (Or.inl hn)]
    rfl
  · have habs : |Decimal.value ⟨!negative, n, k⟩| = |Decimal.value ⟨negative, n, k⟩| := by
      rw [Decimal.abs_value, Decimal.abs_value]
    rw [ofDecimal_eq hn, ofDecimal_eq hn, habs, adjusted_congr hn hn habs, rounded_neg]
    simp only
    split_ifs <;> rfl

/-- Three bits are less than a digit. -/
theorem two_zpow_le (k : Nat) : (2 : ℚ) ^ (3 * k : Int) ≤ 10 ^ (k : Int) := by
  rw [zpow_mul, zpow_natCast, zpow_natCast]
  exact pow_le_pow_left₀ (by norm_num) (by norm_num) k

theorem zpow_le_of_isCanonical (h : IsCanonical m e) (hm : m ≠ 0) :
    (10 : ℚ) ^ (-400 : Int) ≤ m * 2 ^ e := by
  have hone : (1 : ℚ) ≤ m := by exact_mod_cast Nat.one_le_iff_ne_zero.mpr hm
  calc (10 : ℚ) ^ (-400 : Int) ≤ 10 ^ (-(358 : Nat) : Int) :=
        zpow_le_zpow_right₀ (by norm_num) (by decide)
    _ ≤ 2 ^ (-(3 * (358 : Nat)) : Int) := by
      rw [zpow_neg, zpow_neg]
      exact inv_anti₀ (by positivity) (two_zpow_le 358)
    _ ≤ 2 ^ e := zpow_le_zpow_right₀ (by norm_num) h.2.1
    _ ≤ m * 2 ^ e := le_mul_of_one_le_left (by positivity) hone

theorem lt_zpow_of_isCanonical (h : IsCanonical m e) : (m * 2 ^ e : ℚ) < 10 ^ (401 : Int) := by
  have hsmall : (m : ℚ) < 2 ^ (53 : Int) := by exact_mod_cast h.1
  calc (m * 2 ^ e : ℚ) < 2 ^ (53 : Int) * 2 ^ e := by gcongr
    _ ≤ 2 ^ (53 : Int) * 2 ^ (971 : Int) := by
      gcongr
      · norm_num
      · exact h.2.2.1
    _ ≤ 2 ^ (3 * (342 : Nat) : Int) := by
      rw [← zpow_add₀ (by norm_num)]
      exact zpow_le_zpow_right₀ (by norm_num) (by decide)
    _ ≤ 10 ^ ((342 : Nat) : Int) := two_zpow_le 342
    _ < 10 ^ (401 : Int) := zpow_lt_zpow_right₀ (by norm_num) (by decide)

/-- **A decimal with the value of a number is rounded to that number.** -/
theorem ofDecimal_of_eq (h : IsCanonical m e) (hm : m ≠ 0) (hd : |d.value| = m * 2 ^ e) :
    ofDecimal d = .finite d.negative m e h := by
  have hpos : (0 : ℚ) < m * 2 ^ e := by positivity
  have hne : d.coefficient ≠ 0 := by
    rw [Ne, ← Decimal.value_eq_zero, ← abs_eq_zero, hd]
    exact hpos.ne'
  -- No number lies where decimals are taken for zero or for infinite.
  have hlow : -401 < d.adjusted := by
    rw [Decimal.lt_adjusted_iff hne, hd]
    exact zpow_le_of_isCanonical h hm
  have hhigh : ¬ 400 < d.adjusted := by
    rw [Decimal.lt_adjusted_iff hne, hd, not_le]
    exact lt_zpow_of_isCanonical h
  rw [ofDecimal_eq hne, if_neg (by omega), if_neg hhigh, hd, rounded_of_isCanonical h hm]

end Decimals

end SvgDeck.Binary64
