/-
Numerals and what they are worth.

A row of digits has a value, place by place (`digitsValue_append`), and a number has one row of
digits (`digitsValue_ofNat`).  A numeral in shortest form has a whole part that is written as a
number and a fraction that does not end in a zero, so its value determines it:

* `Numeral.IsShortest.eq_of_value` — two shortest numerals of one value are the same;
* `ofNat_eq_append`, `ofNat_mul_pow` — the digits of a quotient and of a product with a power of
  ten.
-/
import SvgDeck.Proofs.FlowId
import SvgDeck.Proofs.Grammar
import Mathlib.Data.List.DropRight

namespace SvgDeck

open Directive (IsDigits Writes)

namespace Text

/-! ### Rows of digits -/

theorem foldl_digits (digits : List Nat) (n : Nat) :
    digits.foldl (fun n d => 10 * n + d) n =
      n * 10 ^ digits.length + digits.foldl (fun n d => 10 * n + d) 0 := by
  induction digits generalizing n with
  | nil => simp
  | cons d digits ih =>
    rw [List.foldl_cons, ih, List.foldl_cons, ih (10 * 0 + d), List.length_cons, Nat.pow_succ]
    ring

theorem exists_digit? {c : CodePoint} (h : c.isDigit = true) : ∃ d, c.digit? = some d :=
  Option.isSome_iff_exists.mp h

theorem digit?_lt {c : CodePoint} {d : Nat} (h : c.digit? = some d) : d < 10 := by
  obtain ⟨z, hz, rfl⟩ := Option.map_eq_some_iff.mp h
  have hrow := List.find?_some hz
  simp only [CodePoint.isBetween, Bool.and_eq_true, decide_eq_true_eq] at hrow
  omega

theorem length_filterMap_digit? {t : Text} (h : IsDigits t) :
    (t.filterMap CodePoint.digit?).length = t.length := by
  induction t with
  | nil => rfl
  | cons c t ih =>
    obtain ⟨hc, ht⟩ := List.forall_mem_cons.mp h
    obtain ⟨d, hd⟩ := exists_digit? hc
    rw [List.filterMap_cons_some hd, List.length_cons, ih ht, List.length_cons]

@[simp] theorem digitsValue_nil : digitsValue [] = 0 := rfl

/-- The digits in front count for as many places as stand behind them. -/
theorem digitsValue_append (s : Text) {t : Text} (h : IsDigits t) :
    digitsValue (s ++ t) = digitsValue s * 10 ^ t.length + digitsValue t := by
  rw [digitsValue, List.filterMap_append, List.foldl_append, foldl_digits,
    length_filterMap_digit? h]
  rfl

theorem digitsValue_singleton {c : CodePoint} {d : Nat} (h : c.digit? = some d) :
    digitsValue [c] = d := by
  simp [digitsValue, h]

theorem digitsValue_lt (t : Text) : digitsValue t < 10 ^ t.length := by
  induction t using List.reverseRecOn with
  | nil => simp
  | append_singleton t c ih =>
    rw [List.length_append, List.length_singleton, Nat.pow_succ]
    by_cases hc : c.isDigit = true
    · obtain ⟨d, hd⟩ := exists_digit? hc
      have hd10 := digit?_lt hd
      rw [digitsValue_append t (by simpa [IsDigits] using hc), digitsValue_singleton hd]
      simp only [List.length_singleton, Nat.pow_one]
      omega
    · have hnone : c.digit? = none := by simpa [CodePoint.isDigit] using hc
      have hpass : digitsValue (t ++ [c]) = digitsValue t := by simp [digitsValue, hnone]
      omega

end Text

/-- A number has at most as many digits as it is long. -/
theorem Directive.Writes.bounds {t : Text} {q : ℚ} (h : Writes t q) :
    0 ≤ q ∧ q < 10 ^ t.length := by
  have hbound : ∀ (u : Text) (k : Nat), u.length ≤ t.length →
      0 ≤ (Text.digitsValue u : ℚ) / 10 ^ k ∧
        (Text.digitsValue u : ℚ) / 10 ^ k < 10 ^ t.length := by
    intro u k hu
    refine ⟨by positivity, ?_⟩
    calc (Text.digitsValue u : ℚ) / 10 ^ k ≤ Text.digitsValue u :=
          div_le_self (Nat.cast_nonneg _) (one_le_pow₀ (by norm_num))
      _ < 10 ^ u.length := by exact_mod_cast Text.digitsValue_lt u
      _ ≤ 10 ^ t.length := pow_le_pow_right₀ (by norm_num) hu
  cases h with
  | whole hs hne => simpa using hbound t 0 le_rfl
  | @point s f hs hne hf => exact hbound (s ++ f) f.length (by simp)
  | @fraction f hf hne => exact hbound f f.length (by simp)

namespace Text

/-! ### ASCII digits -/

/-- The digits that numbers are printed with. -/
def IsAscii (t : Text) : Prop := ∀ c ∈ t, c.isAsciiDigit = true

theorem digit?_of_isAsciiDigit {c : CodePoint} (h : c.isAsciiDigit = true) :
    c.digit? = some (c.val - 0x30) := by
  rw [CodePoint.digit?, CodePoint.digitZeros, List.find?_cons]
  rw [CodePoint.isAsciiDigit] at h
  rw [h]
  rfl

theorem IsAscii.isDigits {t : Text} (h : IsAscii t) : IsDigits t := fun c hc => by
  rw [CodePoint.isDigit, digit?_of_isAsciiDigit (h c hc)]
  rfl

theorem isAscii_ofNat (n : Nat) : IsAscii (ofNat n) := by
  refine List.forall_mem_map.mpr fun c hc => ?_
  have hdigit := Nat.isDigit_of_mem_toDigits (by decide) (by decide) hc
  simp only [Char.isDigit, Bool.and_eq_true, decide_eq_true_eq, UInt32.le_iff_toNat_le] at hdigit
  rw [CodePoint.isAsciiDigit, CodePoint.isBetween, Bool.and_eq_true, decide_eq_true_eq,
    decide_eq_true_eq]
  exact hdigit

theorem ofNat_ne_nil (n : Nat) : ofNat n ≠ [] := by
  rw [← List.length_pos_iff, ofNat, ofNatBase, List.length_map]
  exact Nat.length_toDigits_pos

theorem digitsValue_map_ofChar {cs : List Char} (h : IsAscii (cs.map CodePoint.ofChar)) :
    digitsValue (cs.map CodePoint.ofChar) = Nat.ofDigitChars 10 cs 0 := by
  have hdigits : (cs.map CodePoint.ofChar).filterMap CodePoint.digit? =
      cs.map fun c => c.toNat - '0'.toNat := by
    rw [List.filterMap_map, ← List.filterMap_eq_map]
    refine List.filterMap_congr fun c hc => ?_
    exact digit?_of_isAsciiDigit (h _ (List.mem_map_of_mem hc))
  rw [digitsValue, hdigits, List.foldl_map, Nat.ofDigitChars_eq_foldl]

@[simp] theorem digitsValue_ofNat (n : Nat) : digitsValue (ofNat n) = n := by
  rw [ofNat, ofNatBase, digitsValue_map_ofChar (isAscii_ofNat n), Nat.ofDigitChars_ten_toDigits]

/-- A row of ASCII digits is determined by its length and its value. -/
theorem eq_of_digitsValue {s t : Text} (hs : IsAscii s) (ht : IsAscii t)
    (hlength : s.length = t.length) (hvalue : digitsValue s = digitsValue t) : s = t := by
  induction s using List.reverseRecOn generalizing t with
  | nil => exact (List.length_eq_zero_iff.mp hlength.symm).symm
  | append_singleton s c ih =>
    obtain rfl | ⟨t, d, rfl⟩ := t.eq_nil_or_concat'
    · simp at hlength
    · obtain ⟨hs, hc⟩ := List.forall_mem_append.mp hs
      obtain ⟨ht, hd⟩ := List.forall_mem_append.mp ht
      have hc10 := digit?_of_isAsciiDigit (hc c (by simp))
      have hd10 := digit?_of_isAsciiDigit (hd d (by simp))
      rw [digitsValue_append s (IsAscii.isDigits hc), digitsValue_append t (IsAscii.isDigits hd),
        digitsValue_singleton hc10, digitsValue_singleton hd10] at hvalue
      simp only [List.length_singleton, Nat.pow_one] at hvalue
      have hclt := digit?_lt hc10
      have hdlt := digit?_lt hd10
      have hst : s = t := ih hs ht (by simpa using hlength) (by omega)
      have hcd : c = d := by
        have hcascii := hc c (by simp)
        have hdascii := hd d (by simp)
        simp only [CodePoint.isAsciiDigit, CodePoint.isBetween, Bool.and_eq_true,
          decide_eq_true_eq] at hcascii hdascii
        refine CodePoint.ext ?_
        omega
      rw [hst, hcd]

/-! ### Zeros -/

def zero : CodePoint := CodePoint.ofChar '0'

theorem isAscii_zeros (n : Nat) : IsAscii (List.replicate n zero) := fun c hc => by
  rw [List.eq_of_mem_replicate hc]
  decide

theorem digitsValue_zeros (n : Nat) : digitsValue (List.replicate n zero) = 0 := by
  induction n with
  | zero => rfl
  | succ n ih =>
    have hone : IsAscii [zero] := isAscii_zeros 1
    rw [List.replicate_succ', digitsValue_append _ hone.isDigits, ih]
    rfl

/-- Zeros behind the digits multiply the value. -/
theorem digitsValue_append_zeros (t : Text) (k : Nat) :
    digitsValue (t ++ List.replicate k zero) = digitsValue t * 10 ^ k := by
  rw [digitsValue_append _ (isAscii_zeros k).isDigits, digitsValue_zeros, List.length_replicate,
    Nat.add_zero]

/-- Zeros before the digits have no part in it. -/
theorem digitsValue_zeros_append (k : Nat) {t : Text} (h : IsDigits t) :
    digitsValue (List.replicate k zero ++ t) = digitsValue t := by
  rw [digitsValue_append _ h, digitsValue_zeros, Nat.zero_mul, Nat.zero_add]

/-- Zeros behind a number multiply it. -/
theorem ofNat_mul_pow {n : Nat} (hn : n ≠ 0) (k : Nat) :
    ofNat (n * 10 ^ k) = ofNat n ++ List.replicate k zero := by
  induction k with
  | zero => simp
  | succ k ih =>
    have hpos : 0 < n * 10 ^ k := Nat.mul_pos (Nat.pos_of_ne_zero hn) (Nat.pow_pos (by decide))
    have hdigits := Nat.toDigits_append_toDigits (b := 10) (d := 0) (by decide) hpos (by decide)
    have hten : n * 10 ^ (k + 1) = 10 * (n * 10 ^ k) + 0 := by ring
    rw [hten, List.replicate_succ', ← List.append_assoc, ← ih, ofNat, ofNatBase, ← hdigits,
      List.map_append]
    rfl

/-- The last digits of a number come behind those of its quotient. -/
theorem ofNat_eq_append {n k : Nat} (h : 10 ^ k ≤ n) :
    ∃ last : Text, ofNat n = ofNat (n / 10 ^ k) ++ last ∧ last.length = k ∧ IsAscii last := by
  induction k generalizing n with
  | zero => exact ⟨[], by simp, rfl, by simp [IsAscii]⟩
  | succ k ih =>
    rw [Nat.pow_succ] at h
    have hten : 10 ≤ n := le_trans (Nat.le_mul_of_pos_left 10 (Nat.pow_pos (by decide))) h
    have hfirst : 10 ^ k ≤ n / 10 := (Nat.le_div_iff_mul_le (by decide)).mpr h
    obtain ⟨last, hlast, hlength, _⟩ := ih hfirst
    have hdigits : ofNat n = ofNat (n / 10) ++ [CodePoint.ofChar (n % 10).digitChar] := by
      rw [ofNat, ofNatBase, Nat.toDigits_of_base_le (by decide) hten, List.map_append]
      rfl
    have hquotient : n / 10 / 10 ^ k = n / 10 ^ (k + 1) := by
      rw [Nat.div_div_eq_div_mul, Nat.pow_succ, Nat.mul_comm]
    rw [hlast, hquotient, List.append_assoc] at hdigits
    refine ⟨_, hdigits, by simp [hlength], ?_⟩
    exact (List.forall_mem_append.mp (hdigits ▸ isAscii_ofNat n)).2

end Text

/-! ### Shortest numerals -/

/-- A text writes one number only. -/
theorem Directive.Writes.unique {t : Text} {q r : ℚ} (hq : Writes t q) (hr : Writes t r) :
    q = r := by
  obtain ⟨d, rfl, hd⟩ := Directive.exists_readNumber hq
  obtain ⟨e, rfl, he⟩ := Directive.exists_readNumber hr
  cases (hd 0).symm.trans (he 0)
  rfl

namespace Numeral

open Text

/-- The digits behind the point. -/
def places (n : Numeral) : Text := n.fraction.getD []

/-- The whole part is written as a number, and the fraction, if there is one, ends in a digit other
than zero. -/
structure IsShortest (n : Numeral) : Prop where
  whole : ∃ k, n.whole = Text.ofNat k
  fraction : ∀ f, n.fraction = some f → IsAscii f ∧ ∃ c, f.getLast? = some c ∧ c ≠ zero

variable {n m : Numeral}

theorem IsShortest.writes (h : n.IsShortest) : Writes n.text (Decimal.ofNumeral n).value := by
  obtain ⟨k, hk⟩ := h.whole
  have hdigits : IsDigits n.whole := hk ▸ (isAscii_ofNat k).isDigits
  have hne : n.whole ≠ [] := hk ▸ ofNat_ne_nil k
  obtain ⟨whole, fraction⟩ := n
  cases fraction with
  | none =>
    rw [Directive.value_ofNumeral_none]
    exact .whole hdigits hne
  | some f =>
    rw [Directive.value_ofNumeral_some]
    exact .point hdigits hne (h.fraction f rfl).1.isDigits

theorem IsShortest.isAscii_places (h : n.IsShortest) : IsAscii n.places := by
  cases hf : n.fraction with
  | none => simp [places, hf, IsAscii]
  | some f => simpa [places, hf] using (h.fraction f hf).1

theorem value_eq (h : IsAscii n.places) : (Decimal.ofNumeral n).value =
    (digitsValue n.whole * 10 ^ n.places.length + digitsValue n.places : Nat) /
      10 ^ n.places.length := by
  obtain ⟨whole, fraction⟩ := n
  cases fraction with
  | none => simp [Directive.value_ofNumeral_none, places]
  | some f =>
    have hf : IsAscii f := h
    rw [Directive.value_ofNumeral_some, digitsValue_append _ hf.isDigits]
    rfl

/-- A row of digits that does not end in a zero is no multiple of ten. -/
theorem not_dvd_digitsValue {f : Text} (hf : IsAscii f) {c : CodePoint}
    (hlast : f.getLast? = some c) (hc : c ≠ zero) : ¬ 10 ∣ digitsValue f := by
  obtain ⟨front, rfl⟩ := List.getLast?_eq_some_iff.mp hlast
  have hascii : IsAscii [c] := (List.forall_mem_append.mp hf).2
  have hdigit := digit?_of_isAsciiDigit (hascii c (by simp))
  have hlt := digit?_lt hdigit
  have hpos : c.val - 0x30 ≠ 0 := fun hzero => hc <| CodePoint.ext <| by
    have hrange := hascii c (by simp)
    simp only [CodePoint.isAsciiDigit, CodePoint.isBetween, Bool.and_eq_true,
      decide_eq_true_eq] at hrange
    have hval : zero.val = 0x30 := rfl
    omega
  rw [digitsValue_append front hascii.isDigits, digitsValue_singleton hdigit,
    List.length_singleton]
  omega

/-- Of two fractions of one value the longer one ends in a zero. -/
theorem IsShortest.places_eq (hn : n.IsShortest) (hm : m.IsShortest)
    (hle : n.places.length ≤ m.places.length)
    (h : digitsValue n.places * 10 ^ m.places.length =
      digitsValue m.places * 10 ^ n.places.length) :
    n.places = m.places := by
  have hpos : 0 < 10 ^ n.places.length := Nat.pow_pos (by decide)
  have hvalue : digitsValue m.places =
      digitsValue n.places * 10 ^ (m.places.length - n.places.length) := by
    refine Nat.eq_of_mul_eq_mul_right hpos ?_
    rw [← h, Nat.mul_assoc, ← Nat.pow_add, Nat.sub_add_cancel hle]
  rcases hle.eq_or_lt with heq | hlt
  · refine eq_of_digitsValue hn.isAscii_places hm.isAscii_places heq ?_
    rw [hvalue, heq, Nat.sub_self, Nat.pow_zero, Nat.mul_one]
  · cases hf : m.fraction with
    | none => simp [places, hf] at hlt
    | some f =>
      have hfm : m.places = f := by simp [places, hf]
      obtain ⟨hascii, c, hlast, hc⟩ := hm.fraction f hf
      refine absurd ?_ (not_dvd_digitsValue hascii hlast hc)
      rw [← hfm, hvalue]
      exact (dvd_pow_self 10 (Nat.sub_ne_zero_of_lt hlt)).mul_left _

theorem IsShortest.eq_of_places (hn : n.IsShortest) (hm : m.IsShortest) (hw : n.whole = m.whole)
    (hp : n.places = m.places) : n = m := by
  obtain ⟨whole, fraction⟩ := n
  obtain ⟨whole', fraction'⟩ := m
  -- A fraction is never empty, so nothing behind the point means no point.
  have hnil : ∀ {k : Numeral}, k.IsShortest → k.fraction ≠ some [] := fun hk h => by
    obtain ⟨_, c, hlast, _⟩ := hk.fraction [] h
    cases hlast
  have hn' := hnil hn
  have hm' := hnil hm
  simp only [places] at hp hw hn' hm'
  rw [hw, Numeral.mk.injEq]
  refine ⟨rfl, ?_⟩
  cases fraction <;> cases fraction' <;> simp_all

/-- **The value determines a shortest numeral.** -/
theorem IsShortest.eq_of_value (hn : n.IsShortest) (hm : m.IsShortest)
    (h : (Decimal.ofNumeral n).value = (Decimal.ofNumeral m).value) : n = m := by
  have hpos : ∀ t : Text, 0 < 10 ^ t.length := fun t => Nat.pow_pos (by decide)
  have hcross : (digitsValue n.whole * 10 ^ n.places.length + digitsValue n.places) *
      10 ^ m.places.length =
      (digitsValue m.whole * 10 ^ m.places.length + digitsValue m.places) *
        10 ^ n.places.length := by
    rw [value_eq hn.isAscii_places, value_eq hm.isAscii_places,
      div_eq_div_iff (by positivity) (by positivity)] at h
    exact_mod_cast h
  -- The whole parts are the quotients by what stands for one.
  have hquotient : ∀ w p q : Text,
      (digitsValue w * 10 ^ p.length + digitsValue p) * 10 ^ q.length /
        (10 ^ p.length * 10 ^ q.length) = digitsValue w := fun w p q => by
    rw [Nat.mul_div_mul_right _ _ (hpos q), Nat.mul_comm, Nat.mul_add_div (hpos p),
      Nat.div_eq_of_lt (digitsValue_lt p), Nat.add_zero]
  have hwhole : digitsValue n.whole = digitsValue m.whole := by
    rw [← hquotient n.whole n.places m.places, hcross, Nat.mul_comm (10 ^ n.places.length),
      hquotient]
  have hplaces : digitsValue n.places * 10 ^ m.places.length =
      digitsValue m.places * 10 ^ n.places.length := by
    rw [hwhole, Nat.add_mul, Nat.add_mul, Nat.mul_assoc, Nat.mul_assoc,
      Nat.mul_comm (10 ^ n.places.length)] at hcross
    exact Nat.add_left_cancel hcross
  obtain ⟨k, hk⟩ := hn.whole
  obtain ⟨j, hj⟩ := hm.whole
  refine hn.eq_of_places hm ?_ ?_
  · rw [hk, hj, digitsValue_ofNat, digitsValue_ofNat] at hwhole
    rw [hk, hj, hwhole]
  · rcases Nat.le_total n.places.length m.places.length with hle | hle
    · exact hn.places_eq hm hle hplaces
    · exact (hm.places_eq hn hle hplaces.symm).symm

end Numeral

end SvgDeck
