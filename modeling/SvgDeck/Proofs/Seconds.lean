/-
Seconds in print.

A decimal in positional form is its sign, the whole part of the coefficient, and behind the point
as many digits as the exponent says (`positional_of_nonneg`, `exists_positional_of_neg`).  Without
the zeros at the end this is the shortest numeral of its value:

* `exists_formatSeconds_eq` — a number of seconds is shown by its sign, the shortest numeral of its
  absolute value, and the unit;
* `formatSeconds_inj` — what is shown determines the sign and the value, and nothing else;
* `shows_formatSeconds_iff` — what is shown reads as the number, exactly.
-/
import SvgDeck.Directive.Timing
import SvgDeck.Proofs.Numeral

namespace SvgDeck

open Text

/-! ### Positional form -/

namespace Decimal

variable {d : Decimal}

/-- Without a fraction the coefficient is followed by zeros. -/
theorem positional_of_nonneg (h : 0 ≤ d.exponent) :
    d.positional = d.sign ++ ofNat (d.coefficient * 10 ^ d.exponent.toNat) := by
  rw [positional]
  by_cases hzero : d.coefficient = 0 ∧ 0 < d.exponent
  · rw [if_pos hzero, hzero.1, Nat.zero_mul]
    rfl
  · rw [if_neg hzero]
    rcases h.eq_or_lt with he | he
    · simp [← he, digits]
    · have hne : d.coefficient ≠ 0 := fun hc => hzero ⟨hc, he⟩
      have hfill : (d.exponent + d.digits.length).toNat - d.digits.length = d.exponent.toNat := by
        omega
      rw [if_neg he.ne', withPoint, if_neg (by omega), if_pos (by omega), hfill, digits,
        ofNat_mul_pow hne]
      rfl

/-- The coefficient is cut where the exponent says. -/
theorem exists_withPoint_eq {n k : Nat} (hk : k ≠ 0) :
    ∃ last : Text, withPoint (ofNat n) ((ofNat n).length - k) =
        ofNat (n / 10 ^ k) ++ CodePoint.ofChar '.' :: last ∧
      last.length = k ∧ IsAscii last ∧ digitsValue (ofNat (n / 10 ^ k) ++ last) = n := by
  have hlength : (ofNat n).length ≤ k ↔ n < 10 ^ k := by
    rw [ofNat, ofNatBase, List.length_map]
    exact Nat.length_toDigits_le_iff (by decide) (Nat.pos_of_ne_zero hk)
  rcases Nat.lt_or_ge n (10 ^ k) with hn | hn
  · -- All digits stand behind the point, with zeros before them.
    have hle := hlength.mpr hn
    have hascii : IsAscii (List.replicate (k - (ofNat n).length) zero ++ ofNat n) :=
      List.forall_mem_append.mpr ⟨isAscii_zeros _, isAscii_ofNat n⟩
    refine ⟨List.replicate (k - (ofNat n).length) zero ++ ofNat n, ?_, ?_, hascii, ?_⟩
    · have hfill : (-((ofNat n).length - k : Int)).toNat = k - (ofNat n).length := by omega
      rw [withPoint, if_pos (by omega), hfill, Nat.div_eq_of_lt hn]
      rfl
    · rw [List.length_append, List.length_replicate, Nat.sub_add_cancel hle]
    · rw [Nat.div_eq_of_lt hn, digitsValue_append _ hascii.isDigits, digitsValue_ofNat,
        digitsValue_zeros_append _ (isAscii_ofNat n).isDigits, digitsValue_ofNat, Nat.zero_mul,
        Nat.zero_add]
  · obtain ⟨last, hlast, hlen, hascii⟩ := ofNat_eq_append hn
    refine ⟨last, ?_, hlen, hascii, by rw [← hlast, digitsValue_ofNat]⟩
    have hfront : ((ofNat n).length - k : Int).toNat = (ofNat (n / 10 ^ k)).length := by
      have hsum := congrArg List.length hlast
      rw [List.length_append, hlen] at hsum
      omega
    have hlt : k < (ofNat n).length := not_le.mp fun hle => (hlength.mp hle).not_ge hn
    rw [withPoint, if_neg (by omega), if_neg (by omega), hfront, hlast, List.take_left,
      List.drop_left]
    simp [ofString]

/-- A fraction has as many digits as the exponent says. -/
theorem exists_positional_of_neg (h : d.exponent < 0) :
    ∃ last : Text, d.positional =
        d.sign ++ ofNat (d.coefficient / 10 ^ (-d.exponent).toNat) ++ CodePoint.ofChar '.' :: last ∧
      last.length = (-d.exponent).toNat ∧ IsAscii last ∧
      digitsValue (ofNat (d.coefficient / 10 ^ (-d.exponent).toNat) ++ last) = d.coefficient := by
  have hk : (-d.exponent).toNat ≠ 0 := by omega
  obtain ⟨last, hlast, hrest⟩ := exists_withPoint_eq (n := d.coefficient) hk
  have hplace : d.exponent + d.digits.length =
      (ofNat d.coefficient).length - (-d.exponent).toNat := by
    rw [digits]
    omega
  refine ⟨last, ?_, hrest⟩
  rw [positional, if_neg (by omega), if_neg (by omega), hplace, digits, hlast, List.append_assoc]

theorem not_mem_sign {c : CodePoint} (hc : c ≠ CodePoint.ofChar '-') : c ∉ d.sign := by
  rw [sign]
  split
  · simpa [ofString] using hc
  · exact List.not_mem_nil

end Decimal

/-! ### Trimming -/

/-- ASCII digits are no signs and no points. -/
theorem Text.IsAscii.not_mem {t : Text} (h : IsAscii t) {c : CodePoint}
    (hc : c.isAsciiDigit = false) : c ∉ t := fun hmem => by
  rw [h c hmem] at hc
  cases hc

namespace Directive

theorem trimFraction_of_not_mem {t : Text} (h : CodePoint.ofChar '.' ∉ t) : trimFraction t = t := by
  rw [trimFraction, if_neg (by simpa using h)]

/-- Nothing is taken off the end of a text whose last code point stays. -/
theorem dropWhile_reverse {p : CodePoint → Bool} {t : Text} (h : ∀ c ∈ t.getLast?, p c = false) :
    t.reverse.dropWhile p = t.reverse := by
  obtain rfl | ⟨s, c, rfl⟩ := t.eq_nil_or_concat'
  · rfl
  · simp [h c (by simp)]

/-- Every row of digits is one that does not end in a zero, and zeros. -/
theorem exists_append_zeros (t : Text) :
    ∃ (f : Text) (k : Nat), t = f ++ List.replicate k zero ∧ ∀ c ∈ f.getLast?, c ≠ zero := by
  induction t using List.reverseRecOn with
  | nil => exact ⟨[], 0, rfl, by simp⟩
  | append_singleton t c ih =>
    by_cases hc : c = zero
    · obtain ⟨f, k, rfl, hf⟩ := ih
      exact ⟨f, k + 1, by rw [hc, List.replicate_succ', List.append_assoc], hf⟩
    · exact ⟨t ++ [c], 0, by simp, by simpa using hc⟩

/-- The zeros go, and the point too if nothing else stands behind it. -/
theorem trimFraction_point {front f : Text}
    (hfront : ∀ c ∈ front.getLast?, c ≠ CodePoint.ofChar '.')
    (hpoint : CodePoint.ofChar '.' ∉ f) (hf : ∀ c ∈ f.getLast?, c ≠ zero) (k : Nat) :
    trimFraction (front ++ CodePoint.ofChar '.' :: (f ++ List.replicate k zero)) =
      front ++ if f = [] then [] else CodePoint.ofChar '.' :: f := by
  have hzeros : (front ++ CodePoint.ofChar '.' :: (f ++ List.replicate k zero)).reverse =
      List.replicate k zero ++ (front ++ CodePoint.ofChar '.' :: f).reverse := by simp
  have hkept : (front ++ CodePoint.ofChar '.' :: f).reverse.dropWhile (· = zero) =
      (front ++ CodePoint.ofChar '.' :: f).reverse := by
    refine dropWhile_reverse fun c hc => decide_eq_false ?_
    obtain rfl | ⟨g, d, rfl⟩ := f.eq_nil_or_concat'
    · have hdot : CodePoint.ofChar '.' = c := by simpa using hc
      rw [← hdot]
      decide
    · refine hf c ?_
      simpa [List.getLast?_append, List.getLast?_cons] using hc
  -- What is left behind the zeros is cut off once more, at the point.
  have htrim : trimFraction (front ++ CodePoint.ofChar '.' :: (f ++ List.replicate k zero)) =
      ((front ++ CodePoint.ofChar '.' :: f).reverse.dropWhile
        (· = CodePoint.ofChar '.')).reverse := by
    rw [← hkept, trimFraction, if_pos (by simp), hzeros,
      List.dropWhile_append_of_pos (by simp [zero])]
    rfl
  rw [htrim]
  obtain rfl | ⟨g, d, rfl⟩ := f.eq_nil_or_concat'
  · have hdrop := dropWhile_reverse (p := (· = CodePoint.ofChar '.')) (t := front)
      fun c hc => decide_eq_false (hfront c hc)
    simp [hdrop]
  · have hd : d ≠ CodePoint.ofChar '.' := fun h => hpoint (by simp [h])
    rw [dropWhile_reverse fun c hc => ?_, List.reverse_reverse, if_neg (by simp)]
    have hdc : d = c := by simpa [List.getLast?_append, List.getLast?_cons] using hc
    exact decide_eq_false (hdc ▸ hd)

/-! ### Seconds -/

/-- **Seconds are shown by the shortest numeral** of their absolute value, behind the sign. -/
theorem exists_formatSeconds_eq (d : Decimal) :
    ∃ n : Numeral, n.IsShortest ∧ formatSeconds d = d.sign ++ n.text ++ Text.ofString "s" ∧
      (Decimal.ofNumeral n).value = |d.value| := by
  have hwhole : ∀ k, CodePoint.ofChar '.' ∉ d.sign ++ ofNat k := fun k => by
    rw [List.mem_append, not_or]
    exact ⟨Decimal.not_mem_sign (by decide), (isAscii_ofNat k).not_mem (by decide)⟩
  rcases le_or_gt 0 d.exponent with he | he
  · -- There is no point, and so nothing to trim.
    refine ⟨⟨ofNat (d.coefficient * 10 ^ d.exponent.toNat), none⟩, ⟨⟨_, rfl⟩, by simp⟩, ?_, ?_⟩
    · rw [formatSeconds, Decimal.positional_of_nonneg he, trimFraction_of_not_mem (hwhole _)]
      rfl
    · rw [value_ofNumeral_none, digitsValue_ofNat, Decimal.abs_value, Nat.cast_mul, Nat.cast_pow,
        ← zpow_natCast, Int.toNat_of_nonneg he, Nat.cast_ofNat]
  · -- The zeros at the end of the fraction go, and nothing else.
    obtain ⟨last, hpositional, hlength, hascii, hvalue⟩ := Decimal.exists_positional_of_neg he
    obtain ⟨f, m, rfl, hf⟩ := exists_append_zeros last
    have hfascii : IsAscii f := (List.forall_mem_append.mp hascii).1
    refine ⟨⟨ofNat (d.coefficient / 10 ^ (-d.exponent).toNat), if f = [] then none else some f⟩,
      ?_, ?_, ?_⟩
    · refine ⟨⟨_, rfl⟩, fun g hg => ?_⟩
      obtain ⟨hne, rfl⟩ : f ≠ [] ∧ f = g := by simpa using hg
      refine ⟨hfascii, f.getLast hne, List.getLast?_eq_getLast_of_ne_nil hne, ?_⟩
      exact hf _ (List.getLast?_eq_getLast_of_ne_nil hne)
    · have hfront : ∀ c ∈ (d.sign ++ ofNat (d.coefficient / 10 ^ (-d.exponent).toNat)).getLast?,
          c ≠ CodePoint.ofChar '.' := fun c hc hpoint =>
        hwhole _ (hpoint ▸ List.mem_of_getLast? hc)
      rw [formatSeconds, hpositional,
        trimFraction_point hfront (hfascii.not_mem (by decide)) hf]
      split <;> simp [Numeral.text]
    · have hnumeral : ∀ w : Text, (Decimal.ofNumeral ⟨w, if f = [] then none else some f⟩).value =
          digitsValue (w ++ f) / 10 ^ f.length := fun w => by
        split
        · next hnil => simp [hnil, value_ofNumeral_none]
        · rw [value_ofNumeral_some]
      have hexponent : d.exponent = -((f.length + m : Nat) : Int) := by
        rw [List.length_append, List.length_replicate] at hlength
        omega
      rw [← List.append_assoc, digitsValue_append_zeros] at hvalue
      rw [hnumeral]
      generalize ofNat (d.coefficient / 10 ^ (-d.exponent).toNat) = w at hvalue
      rw [Decimal.abs_value, ← hvalue, hexponent, zpow_neg, zpow_natCast, ← div_eq_mul_inv, pow_add,
        Nat.cast_mul, Nat.cast_pow, Nat.cast_ofNat, mul_div_mul_right _ _ (by positivity)]

/-- Numerals have no sign. -/
theorem not_mem_text {n : Numeral} (h : n.IsShortest) : CodePoint.ofChar '-' ∉ n.text := by
  obtain ⟨k, hk⟩ := h.whole
  have hwhole : CodePoint.ofChar '-' ∉ n.whole := hk ▸ (isAscii_ofNat k).not_mem (by decide)
  rw [Numeral.text]
  cases hf : n.fraction with
  | none => exact hwhole
  | some f =>
    have hpoint : CodePoint.ofChar '-' ≠ CodePoint.ofChar '.' := by decide
    simpa [hwhole, hpoint] using (h.fraction f hf).1.not_mem (by decide)

theorem minus_mem_iff {d : Decimal} {n : Numeral} (h : n.IsShortest) :
    CodePoint.ofChar '-' ∈ d.sign ++ n.text ++ Text.ofString "s" ↔ d.negative = true := by
  have hunit : CodePoint.ofChar '-' ∉ Text.ofString "s" := by decide
  have hminus : CodePoint.ofChar '-' ∈ Text.ofString "-" := by decide
  cases hd : d.negative <;> simp [Decimal.sign, hd, not_mem_text h, hunit, hminus]

/-- **What is shown determines the sign and the value**, and nothing else. -/
theorem formatSeconds_inj {a b : Decimal} :
    formatSeconds a = formatSeconds b ↔ a.negative = b.negative ∧ a.value = b.value := by
  obtain ⟨n, hn, hntext, hnvalue⟩ := exists_formatSeconds_eq a
  obtain ⟨m, hm, hmtext, hmvalue⟩ := exists_formatSeconds_eq b
  constructor
  · intro h
    rw [hntext, hmtext] at h
    have hnegative : a.negative = b.negative := by
      rw [Bool.eq_iff_iff, ← minus_mem_iff hn, ← minus_mem_iff hm, h]
    have hsame : a.sign = b.sign := by rw [Decimal.sign, Decimal.sign, hnegative]
    rw [hsame, List.append_assoc, List.append_assoc, List.append_cancel_left_eq,
      List.append_cancel_right_eq] at h
    have habs : |a.value| = |b.value| := by
      rw [← hnvalue, ← hmvalue]
      exact hn.writes.unique (h ▸ hm.writes)
    rw [Decimal.value_eq_abs a, Decimal.value_eq_abs b, hnegative, habs]
    exact ⟨rfl, rfl⟩
  · rintro ⟨hnegative, hvalue⟩
    have hsame : a.sign = b.sign := by rw [Decimal.sign, Decimal.sign, hnegative]
    have hnumeral : n = m := hn.eq_of_value hm (by rw [hnvalue, hmvalue, hvalue])
    rw [hntext, hmtext, hsame, hnumeral]

/-! ### Reading seconds -/

/-- A text shows a number of seconds: the shortest numeral and the unit, and a minus sign in front
or none. -/
inductive Shows : Text → ℚ → Prop
  | plain {n : Numeral} (h : n.IsShortest) :
    Shows (n.text ++ Text.ofString "s") (Decimal.ofNumeral n).value
  | minus {n : Numeral} (h : n.IsShortest) :
    Shows (CodePoint.ofChar '-' :: (n.text ++ Text.ofString "s")) (-(Decimal.ofNumeral n).value)

/-- A text shows one number only. -/
theorem Shows.unique {t : Text} {q r : ℚ} (hq : Shows t q) (hr : Shows t r) : q = r := by
  have hminus : ∀ {n m : Numeral}, n.IsShortest →
      n.text ++ Text.ofString "s" ≠ CodePoint.ofChar '-' :: (m.text ++ Text.ofString "s") := by
    intro n m hn h
    have hmem : CodePoint.ofChar '-' ∈ n.text ++ Text.ofString "s" := h ▸ List.mem_cons_self
    rcases List.mem_append.mp hmem with hmem | hmem
    · exact not_mem_text hn hmem
    · exact absurd hmem (by decide)
  have hplain : ∀ {n m : Numeral}, n.IsShortest → m.IsShortest →
      n.text ++ Text.ofString "s" = m.text ++ Text.ofString "s" →
      (Decimal.ofNumeral n).value = (Decimal.ofNumeral m).value := by
    intro n m hn hm h
    exact hn.writes.unique ((List.append_cancel_right h) ▸ hm.writes)
  generalize ht : t = u at hr
  cases hq with
  | plain hn =>
    cases hr with
    | plain hm => exact hplain hn hm ht
    | minus hm => exact absurd ht (hminus hn)
  | minus hn =>
    cases hr with
    | plain hm => exact absurd ht.symm (hminus hm)
    | minus hm => rw [hplain hn hm (List.cons.inj ht).2]

/-- **What is shown is the number**, whatever its digits and its exponent. -/
theorem shows_formatSeconds_iff {d : Decimal} {q : ℚ} :
    Shows (formatSeconds d) q ↔ q = d.value := by
  have hshows : Shows (formatSeconds d) d.value := by
    obtain ⟨n, hn, htext, hvalue⟩ := exists_formatSeconds_eq d
    rw [htext, Decimal.value_eq_abs d, Decimal.sign, ← hvalue]
    cases d.negative with
    | false => exact .plain hn
    | true => exact .minus hn
  exact ⟨fun h => h.unique hshows, fun h => h ▸ hshows⟩

end Directive

end SvgDeck
