/-
Floating point numbers in print are read back.

The shortest digits of a number have a value that is rounded to it: they were searched for with this
property, and where the search finds none, all digits of the number are taken.  In print the digits
get a point or an exponent, and the reader finds a decimal of the same value:

* `exists_shortestDigits` — every decimal with the value of the shortest digits is rounded to the
  number;
* `exists_text_finite` — the text of a finite number begins like a number and is read as it;
* `ofText?_text` — the text of a number is read as the number.
-/
import SvgDeck.Number.Shortest
import SvgDeck.Proofs.Numeral
import SvgDeck.Proofs.Rounding

namespace SvgDeck.Binary64

open Text
open Directive (IsDigits Stops Writes)

/-! ### Digits -/

section Digits

variable {m : Nat} {e : Int}

/-- Zeros are all that is dropped. -/
theorem exists_dropZeros (digits : Text) :
    ∃ k, digits = dropZeros digits ++ List.replicate k Text.zero := by
  refine ⟨(digits.reverse.takeWhile (· = CodePoint.ofChar '0')).length, ?_⟩
  have hzeros : digits.reverse.takeWhile (· = CodePoint.ofChar '0') =
      List.replicate (digits.reverse.takeWhile (· = CodePoint.ofChar '0')).length Text.zero :=
    List.eq_replicate_of_mem fun c hc => by
      have hzero := List.mem_takeWhile_imp hc
      exact of_decide_eq_true hzero
  rw [← List.reverse_inj, List.reverse_append, List.reverse_replicate, ← hzeros, dropZeros,
    List.reverse_reverse, List.takeWhile_append_dropWhile]

theorem negative_of_mem_neighbours {n d digits : Nat} {c : Decimal}
    (hc : c ∈ neighbours n d digits) : c.negative = false := by
  rw [neighbours] at hc
  simp only at hc
  split at hc
  · rw [List.mem_singleton.mp hc]
  · split at hc
    · rcases List.mem_pair.mp hc with rfl | rfl <;> rfl
    · rcases List.mem_pair.mp hc with rfl | rfl <;> rfl

/-- All digits of a number have its value. -/
theorem abs_value_exact (m : Nat) (e : Int) :
    |(if 0 ≤ e then (⟨false, (unscale 2 m 1 (-e)).1, 0⟩ : Decimal)
      else ⟨false, m * Nat.pow 5 (-e).toNat, e⟩).value| = m * 2 ^ e := by
  split
  · next h =>
    obtain ⟨k, rfl⟩ := Int.eq_ofNat_of_zero_le h
    rw [Decimal.abs_value, zpow_zero, mul_one, unscale]
    split
    · next hk =>
      obtain rfl : k = 0 := by omega
      simp
    · simp [Nat.pow_eq]
  · next h =>
    obtain ⟨k, hk⟩ := Int.eq_ofNat_of_zero_le (Int.le_of_lt (Int.neg_pos_of_neg (not_le.mp h)))
    obtain rfl : e = -k := by omega
    have hten : (10 : ℚ) ^ k = 5 ^ k * 2 ^ k := by rw [← mul_pow]; norm_num
    rw [Decimal.abs_value, neg_neg, Int.toNat_natCast, Nat.pow_eq, zpow_neg, zpow_neg, zpow_natCast,
      zpow_natCast, hten]
    push_cast
    field_simp

/-- The decimal whose digits are the shortest is rounded to the number. -/
theorem exists_best (h : IsCanonical m e) (hm : m ≠ 0) :
    ∃ c : Decimal, c.negative = false ∧ ofDecimal c = .finite false m e h ∧
      shortestDigits m e = (dropZeros c.digits, c.exponent + c.digits.length) := by
  have hterms := unscale_ratio 2 m 1 (-e)
  have hne := unscale_snd_ne_zero (n := m) (by decide : 2 ≠ 0) one_ne_zero (-e)
  rw [Nat.cast_one, div_one, zpow_neg, div_inv_eq_mul, Nat.cast_ofNat] at hterms
  have hvalue : ofRatio false _ _ = .finite false m e h := ofRatio_of_eq h hm hne hterms
  rw [shortestDigits]
  simp only [hvalue]
  generalize hfind : List.find? _ _ = found
  cases found with
  | some c =>
    obtain ⟨i, _, hc⟩ := List.mem_flatMap.mp (List.mem_of_find?_eq_some hfind)
    exact ⟨c, negative_of_mem_neighbours hc, by simpa using List.find?_some hfind, rfl⟩
  | none =>
    refine ⟨_, ?_, ?_, rfl⟩
    · split <;> rfl
    · rw [Option.getD_none, ofDecimal_of_eq h hm (abs_value_exact m e)]
      split <;> rfl

/-- What is left of the digits of a decimal has its value, at the place where they end. -/
theorem abs_value_dropZeros (c : Decimal) : |c.value| = digitsValue (dropZeros c.digits) *
    10 ^ (c.exponent + c.digits.length - (dropZeros c.digits).length) := by
  obtain ⟨k, hk⟩ := exists_dropZeros c.digits
  have hcoefficient : c.coefficient = digitsValue (dropZeros c.digits) * 10 ^ k := by
    rw [← digitsValue_append_zeros, ← hk, Decimal.digits, digitsValue_ofNat]
  have hplace : c.exponent + c.digits.length - (dropZeros c.digits).length = k + c.exponent := by
    have hlength := congrArg List.length hk
    rw [List.length_append, List.length_replicate] at hlength
    omega
  rw [Decimal.abs_value, hcoefficient, hplace, zpow_add₀ (by norm_num), zpow_natCast, ← mul_assoc,
    Nat.cast_mul, Nat.cast_pow, Nat.cast_ofNat]

theorem isAscii_dropZeros (c : Decimal) : IsAscii (dropZeros c.digits) := by
  obtain ⟨k, hk⟩ := exists_dropZeros c.digits
  have hall : IsAscii c.digits := isAscii_ofNat _
  rw [hk] at hall
  exact (List.forall_mem_append.mp hall).1

/-- The sign of a decimal is that of what it is rounded to. -/
theorem ofDecimal_of_negative {c : Decimal} {h : IsCanonical m e} (hc : c.negative = false)
    (hround : ofDecimal c = .finite false m e h) (s : Bool) :
    ofDecimal ⟨s, c.coefficient, c.exponent⟩ = .finite s m e h := by
  obtain ⟨_, coefficient, exponent⟩ := c
  subst hc
  cases s with
  | false => exact hround
  | true =>
    rw [← Bool.not_false, ofDecimal_neg, hround]
    rfl

/-- **The value of the shortest digits is rounded to the number**, with either sign. -/
theorem exists_shortestDigits (h : IsCanonical m e) (hm : m ≠ 0) :
    ∃ digits place, shortestDigits m e = (digits, place) ∧ IsAscii digits ∧ digits ≠ [] ∧
      ∀ d : Decimal, |d.value| = digitsValue digits * 10 ^ (place - digits.length) →
        ofDecimal d = .finite d.negative m e h := by
  obtain ⟨c, hnegative, hc, hshortest⟩ := exists_best h hm
  have hzero : c.coefficient ≠ 0 := by
    intro hzero
    rw [ofDecimal, if_pos (Or.inl hzero), hnegative] at hc
    cases hc
    exact hm rfl
  have hvalue := abs_value_dropZeros c
  refine ⟨_, _, hshortest, isAscii_dropZeros c, fun hnil => ?_, fun d hd => ?_⟩
  · -- Without digits the value would be zero.
    rw [hnil, digitsValue_nil, Nat.cast_zero, zero_mul, abs_eq_zero,
      Decimal.value_eq_zero] at hvalue
    exact hzero hvalue
  · rw [← ofDecimal_of_negative hnegative hc d.negative]
    refine ofDecimal_congr hzero rfl ?_
    rw [hd, ← hvalue, Decimal.abs_value, Decimal.abs_value]

end Digits

/-! ### Numerals -/

/-- The text is a numeral of ASCII digits that begins with one. -/
inductive Prints : Text → ℚ → Prop
  | whole {t : Text} (h : IsAscii t) (hne : t ≠ []) : Prints t (digitsValue t)
  | point {t f : Text} (h : IsAscii t) (hne : t ≠ []) (hf : IsAscii f) :
    Prints (t ++ CodePoint.ofChar '.' :: f) (digitsValue (t ++ f) / 10 ^ f.length)

section Numerals

variable {digits t rest : Text} {q : ℚ} {place k : Int}

theorem Prints.writes (h : Prints t q) : Writes t q := by
  cases h with
  | whole h hne => exact .whole h.isDigits hne
  | point h hne hf => exact .point h.isDigits hne hf.isDigits

theorem Prints.parts (h : Prints t q) :
    ∀ c ∈ t, c.isAsciiDigit = true ∨ c = CodePoint.ofChar '.' := by
  cases h with
  | whole h hne => exact fun c hc => Or.inl (h c hc)
  | point h hne hf =>
    simp only [List.mem_append, List.mem_cons]
    rintro c (hc | hc | hc)
    · exact Or.inl (h c hc)
    · exact Or.inr hc
    · exact Or.inl (hf c hc)

/-- The text begins with an ASCII digit. -/
def Starts (t : Text) : Prop := ∃ c u, t = c :: u ∧ c.isAsciiDigit = true

theorem Starts.append (h : Starts t) (rest : Text) : Starts (t ++ rest) := by
  obtain ⟨c, u, rfl, hc⟩ := h
  exact ⟨c, u ++ rest, rfl, hc⟩

theorem starts_of_isAscii (h : IsAscii t) (hne : t ≠ []) : Starts t := by
  obtain ⟨c, u, rfl⟩ := List.exists_cons_of_ne_nil hne
  exact ⟨c, u, rfl, h c List.mem_cons_self⟩

theorem Prints.starts (h : Prints t q) : Starts t := by
  cases h with
  | whole h hne => exact starts_of_isAscii h hne
  | point h hne hf => exact (starts_of_isAscii h hne).append _

/-- Digits with a point have the value that the place of the point gives them. -/
theorem prints_withPoint (ha : IsAscii digits) (hne : digits ≠ []) (place : Int) :
    Prints (Decimal.withPoint digits place)
      (digitsValue digits * 10 ^ (place - digits.length)) := by
  rw [Decimal.withPoint]
  split
  · next h =>
    -- All digits stand behind the point, with zeros before them.
    obtain ⟨k, hk⟩ := Int.eq_ofNat_of_zero_le (Int.neg_nonneg_of_nonpos h)
    obtain rfl : place = -k := by omega
    have hzeros : IsAscii (List.replicate k Text.zero ++ digits) :=
      List.forall_mem_append.mpr ⟨isAscii_zeros k, ha⟩
    have hprints := Prints.point (isAscii_zeros 1) (by simp) hzeros
    rw [digitsValue_zeros_append _ hzeros.isDigits, digitsValue_zeros_append _ ha.isDigits,
      List.length_append, List.length_replicate] at hprints
    rw [neg_neg, Int.toNat_natCast, sub_eq_add_neg, ← neg_add, zpow_neg, ← Nat.cast_add,
      zpow_natCast, ← div_eq_mul_inv]
    exact hprints
  · next h =>
    split
    · next hle =>
      -- All digits stand before the point, with zeros behind them.
      have hzeros : IsAscii (digits ++ List.replicate (place.toNat - digits.length) Text.zero) :=
        List.forall_mem_append.mpr ⟨ha, isAscii_zeros _⟩
      have hprints := Prints.whole hzeros (by simp [hne])
      have hexponent : (place - digits.length : Int) = (place.toNat - digits.length : Nat) := by
        omega
      rw [digitsValue_append_zeros, Nat.cast_mul, Nat.cast_pow, Nat.cast_ofNat] at hprints
      rw [hexponent, zpow_natCast]
      exact hprints
    · next hlt =>
      -- The point stands between the digits.
      have hfront : digits.take place.toNat ≠ [] := by
        rw [Ne, List.take_eq_nil_iff, not_or]
        exact ⟨by omega, hne⟩
      have hsplit := List.forall_mem_append.mp
        ((List.take_append_drop place.toNat digits).symm ▸ ha)
      have hprints := Prints.point hsplit.1 hfront hsplit.2
      have hexponent : (place - digits.length : Int) = -(digits.length - place.toNat : Nat) := by
        omega
      rw [List.take_append_drop, List.length_drop] at hprints
      rw [hexponent, zpow_neg, zpow_natCast, ← div_eq_mul_inv, List.append_assoc]
      exact hprints

theorem point_mem_withFraction (t : Text) : CodePoint.ofChar '.' ∈ withFraction t := by
  rw [withFraction]
  split
  · next h => simpa using h
  · simp [ofString]

/-- A fraction of zero changes nothing. -/
theorem Prints.withFraction (h : Prints t q) : Prints (withFraction t) q := by
  rw [Binary64.withFraction]
  split
  · exact h
  · next hpoint =>
    cases h with
    | whole h hne =>
      have hprints := Prints.point h hne (isAscii_zeros 1)
      rw [digitsValue_append_zeros] at hprints
      simpa [ofString, Text.zero] using hprints
    | point => exact absurd (by simp) hpoint

/-! ### Literals -/

theorem natOfDigits?_of_isAscii (h : IsAscii t) (hne : t ≠ []) :
    natOfDigits? t = some (digitsValue t) := if_pos ⟨hne, List.all_eq_true.mpr h⟩

/-- A sign is split off in front of a digit. -/
theorem splitSign_signText (negative : Bool) (h : Starts t) :
    splitSign (signText negative ++ t) = (negative, t) := by
  obtain ⟨c, u, rfl, hc⟩ := h
  cases negative with
  | true => rfl
  | false =>
    show splitSign (c :: u) = _
    rw [splitSign, if_neg, if_neg]
    · rintro rfl
      exact absurd hc (by decide)
    · rintro rfl
      exact absurd hc (by decide)

/-- The exponent is read back. -/
theorem exponentPart?_exponentText (n : Int) : exponentPart? (exponentText n) = some n := by
  have hzeros := isAscii_zeros (2 - (ofNat n.natAbs).length)
  have hascii := List.forall_mem_append.mpr ⟨hzeros, isAscii_ofNat n.natAbs⟩
  have hvalue : natOfDigits? (List.replicate (2 - (ofNat n.natAbs).length) Text.zero ++
      ofNat n.natAbs) = some n.natAbs := by
    rw [natOfDigits?_of_isAscii hascii (by simp [ofNat_ne_nil]),
      digitsValue_zeros_append _ (isAscii_ofNat _).isDigits, digitsValue_ofNat]
  have htext : exponentText n = CodePoint.ofChar 'e' ::
      ((if n < 0 then ofString "-" else ofString "+") ++
        (List.replicate (2 - (ofNat n.natAbs).length) Text.zero ++ ofNat n.natAbs)) := by
    rw [exponentText]
    split <;> simp [ofString, Text.zero]
  have hsign : ∀ t : Text, splitSign ((if n < 0 then ofString "-" else ofString "+") ++ t) =
      (decide (n < 0), t) := fun t => by
    by_cases hn : n < 0
    · rw [if_pos hn, decide_eq_true hn]
      rfl
    · rw [if_neg hn, decide_eq_false hn]
      rfl
  rw [htext, exponentPart?, if_pos (Or.inl rfl), hsign]
  simp only [hvalue, Option.map_some, decide_eq_true_eq, Option.some.injEq, Option.bind_eq_bind,
    Option.bind_some, Option.pure_def]
  split <;> omega

/-- What a numeral and an exponent stand for. -/
theorem exists_ofLiteral? (negative : Bool) (h : Prints t q) (hrest : Stops rest)
    (hk : exponentPart? rest = some k) :
    ∃ d : Decimal, Decimal.ofLiteral? (signText negative ++ (t ++ rest)) = some d ∧
      d.negative = negative ∧ |d.value| = q * 10 ^ k := by
  obtain ⟨n, hsplit, hvalue⟩ := Directive.exists_split? h.writes hrest
  have htext : n.text = t := List.append_cancel_right (Numeral.append_of_split? hsplit)
  have hascii : (n.text.any fun c => c.isDigit && !c.isAsciiDigit) = false := by
    rw [htext, List.any_eq_false]
    intro c hc
    rcases h.parts c hc with hc | rfl
    · simp [hc]
    · decide
  refine ⟨⟨negative, (Decimal.ofNumeral n).coefficient, (Decimal.ofNumeral n).exponent + k⟩,
    ?_, rfl, ?_⟩
  · rw [Decimal.ofLiteral?, splitSign_signText negative (h.starts.append rest)]
    simp only [hsplit, hascii, Bool.false_eq_true, if_false, hk, Option.map_some]
  · have hq : |(Decimal.ofNumeral n).value| = q := by
      rw [hvalue, abs_of_nonneg h.writes.bounds.1]
    rw [Decimal.abs_value, zpow_add₀ (by norm_num), ← mul_assoc, ← hq, Decimal.abs_value]

end Numerals

/-! ### Numbers in print -/

section Texts

variable {body t rest : Text} {q : ℚ} {k : Int} {m : Nat} {e : Int} {h : IsCanonical m e}

/-- The text of a finite number without its sign: it begins with a digit, does not have digits only,
and is read as the number. -/
structure IsMagnitude (body : Text) (m : Nat) (e : Int) (h : IsCanonical m e) : Prop where
  starts : Starts body
  parts : ∀ c ∈ body, c.isAsciiDigit = true ∨ c ∈ ofString ".e+-"
  marked : ∃ c ∈ body, c.isAsciiDigit = false
  read : ∀ negative, ∃ d, Decimal.ofLiteral? (signText negative ++ body) = some d ∧
    ofDecimal d = .finite negative m e h

/-- A numeral and an exponent whose value is rounded to a number. -/
theorem isMagnitude_append (hp : Prints t q) (hstops : Stops rest)
    (hk : exponentPart? rest = some k)
    (hparts : ∀ c ∈ rest, c.isAsciiDigit = true ∨ c ∈ ofString ".e+-")
    (hmarked : ∃ c ∈ t ++ rest, c.isAsciiDigit = false)
    (hround : ∀ d : Decimal, |d.value| = q * 10 ^ k → ofDecimal d = .finite d.negative m e h) :
    IsMagnitude (t ++ rest) m e h := by
  constructor
  case starts => exact hp.starts.append rest
  case parts =>
    refine List.forall_mem_append.mpr ⟨fun c hc => (hp.parts c hc).imp_right ?_, hparts⟩
    rintro rfl
    decide
  case marked => exact hmarked
  case read =>
    intro negative
    obtain ⟨d, hd, hs, hvalue⟩ := exists_ofLiteral? negative hp hstops hk
    exact ⟨d, hd, hs ▸ hround d hvalue⟩

theorem isMagnitude_zero (h : IsCanonical 0 e) : IsMagnitude (ofString "0.0") 0 e h := by
  have hprints := Prints.point (isAscii_zeros 1) (by simp) (isAscii_zeros 1)
  obtain rfl : e = -1074 := h.2.2.2.resolve_left (by decide)
  rw [← List.append_nil (ofString "0.0")]
  refine isMagnitude_append hprints Directive.stops_nil rfl (by simp) ?_ fun d hd => ?_
  · exact ⟨CodePoint.ofChar '.', by decide, by decide⟩
  · have hdigits : digitsValue (List.replicate 1 Text.zero ++ List.replicate 1 Text.zero) = 0 :=
      digitsValue_zeros 2
    have hzero : d.coefficient = 0 := by
      rw [← Decimal.value_eq_zero, ← abs_eq_zero, hd, hdigits, Nat.cast_zero, zero_div, zero_mul]
    rw [ofDecimal, if_pos (Or.inl hzero)]
    rfl

theorem parts_exponentText (n : Int) :
    ∀ c ∈ exponentText n, c.isAsciiDigit = true ∨ c ∈ ofString ".e+-" := by
  have hletter : ∀ c ∈ ofString "e", c ∈ ofString ".e+-" := by decide
  have hsign : ∀ c ∈ ofString (if n < 0 then "-" else "+"), c ∈ ofString ".e+-" := by
    split <;> decide
  rw [exponentText]
  intro c hc
  simp only [List.mem_append] at hc
  rcases hc with ((hc | hc) | hc) | hc
  · exact Or.inr (hletter c hc)
  · exact Or.inr (hsign c hc)
  · exact Or.inl (isAscii_zeros _ c hc)
  · exact Or.inl (isAscii_ofNat _ c hc)

/-- The shortest digits in print are read as the number. -/
theorem isMagnitude_magnitudeText (h : IsCanonical m e) (hm : m ≠ 0) :
    IsMagnitude (magnitudeText m e) m e h := by
  obtain ⟨digits, place, hdigits, ha, hne, hround⟩ := exists_shortestDigits h hm
  rw [magnitudeText, hdigits]
  simp only
  split
  · -- In its place, with a point.
    rw [← List.append_nil (withFraction _)]
    refine isMagnitude_append (prints_withPoint ha hne place).withFraction Directive.stops_nil rfl
      (by simp) ?_ fun d hd => hround d ?_
    · refine ⟨CodePoint.ofChar '.', ?_, by decide⟩
      rw [List.append_nil]
      exact point_mem_withFraction _
    · rw [hd, zpow_zero, mul_one]
  · -- With the point behind the first digit and an exponent.
    have hprints : Prints (if digits.length = 1 then digits else Decimal.withPoint digits 1)
        (digitsValue digits * 10 ^ (1 - digits.length : Int)) := by
      split
      · next hone =>
        have hwhole := Prints.whole ha hne
        rwa [hone, Nat.cast_one, sub_self, zpow_zero, mul_one]
      · exact prints_withPoint ha hne 1
    have hletter : ∀ n, CodePoint.ofChar 'e' ∈ (exponentText n).head? := fun n => rfl
    refine isMagnitude_append hprints ?_ (exponentPart?_exponentText _) (parts_exponentText _) ?_
      fun d hd => hround d ?_
    · intro c hc
      rw [← Option.mem_unique (hletter _) hc]
      decide
    · exact ⟨CodePoint.ofChar 'e', List.mem_append_right _ (List.mem_of_mem_head? (hletter _)),
        by decide⟩
    · rw [hd, mul_assoc, ← zpow_add₀ (by norm_num)]
      congr 2
      omega

/-- **The text of a finite number** is its sign and what is read as its magnitude. -/
theorem exists_text_finite (negative : Bool) (h : IsCanonical m e) :
    ∃ body, text (.finite negative m e h) = signText negative ++ body ∧ IsMagnitude body m e h := by
  rw [text]
  split
  · next hm =>
    subst hm
    exact ⟨_, rfl, isMagnitude_zero h⟩
  · next hm => exact ⟨_, rfl, isMagnitude_magnitudeText h hm⟩

/-- What begins with a digit is no word. -/
theorem Starts.toAsciiLower_ne (ht : Starts t) {word : Text}
    (hword : ∀ c ∈ word.head?, c.isAsciiDigit = false) : t.toAsciiLower ≠ word := by
  obtain ⟨c, u, rfl, hc⟩ := ht
  have hlower : c.toAsciiLower = c := by
    rw [CodePoint.toAsciiLower, dif_neg]
    simp only [CodePoint.isAsciiUpper, CodePoint.isAsciiDigit, CodePoint.isBetween,
      Bool.and_eq_true, decide_eq_true_eq] at hc ⊢
    omega
  rintro rfl
  have hdigit := hword c (by simp [Text.toAsciiLower, hlower])
  rw [hc] at hdigit
  cases hdigit

/-- **The text of a number is read as the number.** -/
theorem ofText?_text (x : Binary64) : ofText? x.text = some x := by
  cases x with
  | nan => decide
  | infinite negative => cases negative <;> decide
  | finite negative m e h =>
    obtain ⟨body, htext, hbody⟩ := exists_text_finite negative h
    obtain ⟨d, hd, hround⟩ := hbody.read negative
    have hinfinity : isInfinityWord body = false := by
      rw [isInfinityWord, Bool.or_eq_false_iff, beq_eq_false_iff_ne, beq_eq_false_iff_ne]
      exact ⟨hbody.starts.toAsciiLower_ne (by decide), hbody.starts.toAsciiLower_ne (by decide)⟩
    have hnan : body.toAsciiLower ≠ ofString "nan" := hbody.starts.toAsciiLower_ne (by decide)
    rw [ofText?, htext, splitSign_signText negative hbody.starts]
    simp only [hinfinity, Bool.false_eq_true, if_false]
    rw [if_neg hnan, hd, Option.map_some, hround]

end Texts

end SvgDeck.Binary64
