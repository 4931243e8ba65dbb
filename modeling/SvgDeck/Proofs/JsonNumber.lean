/-
The numbers of JSON.

A number is a row of digits with an optional sign in front, and a point with digits and an exponent
behind it.  The reader asks for this form, part by part (`isExponent_iff`, `isBehindWhole_iff`), and
what it takes for a number is one of the grammar (`isNumber_iff`).  Whole numbers and finite floats
in print are such numbers, the digits beginning with a zero only if it stands alone
(`isNumber_ofInt`, `isNumber_text`).
-/
import SvgDeck.Json.Grammar
import SvgDeck.Json.Reader
import SvgDeck.Proofs.Shortest

namespace SvgDeck

open Text

/-- Whether a number is neither infinite nor not a number. -/
def Binary64.isFinite : Binary64 → Bool
  | .finite .. => true
  | _ => false

namespace Json

/-! ### The form of a number -/

section Form

variable {t digits : Text}

theorem isSome_natOfDigits? : (natOfDigits? t).isSome = true ↔ IsDigitRow t := by
  rw [natOfDigits?, IsDigitRow, ← List.all_eq_true]
  split
  · next h => exact iff_of_true rfl h
  · next h => exact iff_of_false (by simp) h

theorem isWhole_iff : isWhole t = true ↔ IsWhole t := by
  rw [isWhole, IsWhole, Bool.and_eq_true, isSome_natOfDigits?, Bool.or_eq_true, decide_eq_true_eq,
    decide_eq_true_eq, imp_iff_not_or]

/-- No digit is taken for a sign. -/
theorem splitSign_of_isDigitRow (h : IsDigitRow digits) : splitSign digits = (false, digits) :=
  Binary64.splitSign_signText false (Binary64.starts_of_isAscii h.2 h.1)

theorem exists_splitSign (t : Text) :
    ∃ sign ∈ [[], Text.ofString "+", Text.ofString "-"], t = sign ++ (splitSign t).2 := by
  cases t with
  | nil => exact ⟨[], by simp, rfl⟩
  | cons c t =>
    rw [splitSign]
    split_ifs with hminus hplus
    · exact ⟨Text.ofString "-", by simp, hminus ▸ rfl⟩
    · exact ⟨Text.ofString "+", by simp, hplus ▸ rfl⟩
    · exact ⟨[], by simp, rfl⟩

theorem isSome_exponentPart? {c : CodePoint}
    (hc : c = CodePoint.ofChar 'e' ∨ c = CodePoint.ofChar 'E') (t : Text) :
    (exponentPart? (c :: t)).isSome = (natOfDigits? (splitSign t).2).isSome := by
  rw [exponentPart?, if_pos hc]
  obtain ⟨negative, digits⟩ := splitSign t
  cases h : natOfDigits? digits <;> simp [h]

theorem isExponent_iff : (exponentPart? t).isSome = true ↔ IsExponent t := by
  constructor
  · intro h
    cases t with
    | nil => exact .none
    | cons c t =>
      have hletter : c = CodePoint.ofChar 'e' ∨ c = CodePoint.ofChar 'E' := by
        by_contra hne
        rw [exponentPart?, if_neg hne] at h
        cases h
      rw [isSome_exponentPart? hletter, isSome_natOfDigits?] at h
      obtain ⟨sign, hsign, ht⟩ := exists_splitSign t
      have hmem : [c] ∈ [Text.ofString "e", Text.ofString "E"] := by
        rcases hletter with rfl | rfl <;> simp [Text.ofString]
      have hpower := IsExponent.power hmem hsign h
      rwa [List.append_assoc, ← ht] at hpower
  · intro h
    cases h with
    | none => rfl
    | @power letter sign digits hletter hsign hrow =>
      have hsplit : (splitSign (sign ++ digits)).2 = digits := by
        simp only [List.mem_cons, List.not_mem_nil, or_false] at hsign
        rcases hsign with rfl | rfl | rfl
        · exact congrArg Prod.snd (splitSign_of_isDigitRow hrow)
        · rfl
        · rfl
      have hread : ∀ c : CodePoint, c = CodePoint.ofChar 'e' ∨ c = CodePoint.ofChar 'E' →
          (exponentPart? (c :: (sign ++ digits))).isSome = true := by
        intro c hc
        rw [isSome_exponentPart? hc, hsplit, isSome_natOfDigits?]
        exact hrow
      simp only [List.mem_cons, List.not_mem_nil, or_false] at hletter
      rcases hletter with rfl | rfl
      · exact hread _ (.inl rfl)
      · exact hread _ (.inr rfl)

/-- An exponent begins with a letter. -/
theorem IsExponent.head? (h : IsExponent t) :
    ∀ c ∈ t.head?, c.isAsciiDigit = false ∧ c ≠ CodePoint.ofChar '.' := by
  cases h with
  | none => simp
  | power hletter _ _ =>
    simp only [List.mem_cons, List.not_mem_nil, or_false] at hletter
    rcases hletter with rfl | rfl <;> rintro c ⟨⟩ <;> decide

theorem isBehindWhole_iff :
    isBehindWhole t = true ↔
      ∃ fraction exponent, IsFraction fraction ∧ IsExponent exponent ∧ t = fraction ++ exponent := by
  constructor
  · intro h
    cases t with
    | nil => exact ⟨[], [], .none, .none, rfl⟩
    | cons c t =>
      rw [isBehindWhole] at h
      split_ifs at h with hpoint
      · rw [Bool.and_eq_true, isSome_natOfDigits?, isExponent_iff] at h
        refine ⟨_, _, .point h.1, h.2, ?_⟩
        rw [hpoint, List.append_assoc, List.takeWhile_append_dropWhile]
        rfl
      · exact ⟨[], c :: t, .none, isExponent_iff.mp h, rfl⟩
  · rintro ⟨fraction, exponent, hfraction, hexponent, rfl⟩
    cases hfraction with
    | none =>
      cases exponent with
      | nil => rfl
      | cons c exponent =>
        rw [List.nil_append, isBehindWhole, if_neg (hexponent.head? c rfl).2, isExponent_iff]
        exact hexponent
    | @point digits hrow =>
      obtain ⟨htake, hdrop⟩ := Text.takeWhile_append hrow.2 fun c hc => (hexponent.head? c hc).1
      show isBehindWhole (CodePoint.ofChar '.' :: (digits ++ exponent)) = true
      rw [isBehindWhole, if_pos rfl, htake, hdrop, Bool.and_eq_true, isSome_natOfDigits?,
        isExponent_iff]
      exact ⟨hrow, hexponent⟩

/-- The digits in front end where the rest begins. -/
theorem head?_fraction_append {fraction exponent : Text} (hfraction : IsFraction fraction)
    (hexponent : IsExponent exponent) :
    ∀ c ∈ (fraction ++ exponent).head?, c.isAsciiDigit = false := by
  cases hfraction with
  | none => exact fun c hc => (hexponent.head? c hc).1
  | point _ =>
    rintro c ⟨⟩
    decide

/-- A minus sign is taken off in front of digits. -/
theorem getD_after?_minus {sign whole rest : Text} (hsign : sign ∈ [[], Text.ofString "-"])
    (hwhole : IsDigitRow whole) :
    (after? "-" (sign ++ (whole ++ rest))).getD (sign ++ (whole ++ rest)) = whole ++ rest := by
  simp only [List.mem_cons, List.not_mem_nil, or_false] at hsign
  rcases hsign with rfl | rfl
  · obtain ⟨c, digits, rfl⟩ := List.exists_cons_of_ne_nil hwhole.1
    have hminus : CodePoint.ofChar '-' ≠ c := by
      rintro rfl
      exact absurd (hwhole.2 _ List.mem_cons_self) (by decide)
    show (if CodePoint.ofChar '-' = c then _ else none : Option Text).getD _ = _
    rw [if_neg hminus]
    rfl
  · rfl

/-- **The reader takes for a number what the grammar does.** -/
theorem isNumber_iff : isNumber t = true ↔ IsNumber t := by
  rw [isNumber, Bool.and_eq_true, isWhole_iff, isBehindWhole_iff]
  constructor
  · rintro ⟨hwhole, fraction, exponent, hfraction, hexponent, hrest⟩
    obtain ⟨sign, hsign, ht⟩ : ∃ sign ∈ [[], Text.ofString "-"],
        t = sign ++ (after? "-" t).getD t := by
      cases hafter : after? "-" t with
      | none => exact ⟨[], by simp, rfl⟩
      | some body => exact ⟨Text.ofString "-", by simp, (append_of_after? hafter).symm⟩
    have hnumber := IsNumber.parts hsign hwhole hfraction hexponent
    rwa [List.append_assoc, ← hrest, List.append_assoc, List.takeWhile_append_dropWhile, ← ht]
      at hnumber
  · intro h
    cases h with
    | @parts sign whole fraction exponent hsign hwhole hfraction hexponent =>
      obtain ⟨htake, hdrop⟩ :=
        Text.takeWhile_append hwhole.1.2 (head?_fraction_append hfraction hexponent)
      rw [List.append_assoc, List.append_assoc, getD_after?_minus hsign hwhole.1, htake, hdrop]
      exact ⟨hwhole, fraction, exponent, hfraction, hexponent, rfl⟩

/-- A zero or a plus sign in front and a point at an end make no number. -/
example : ∀ t ∈ ["01", "+1", "1.", ".5"], isNumber (Text.ofString t) = false := by decide

end Form

/-! ### Numbers in print -/

section Print

open Binary64

variable {digits t : Text} {m : Nat} {e : Int}

/-- A number without sign and exponent. -/
inductive IsPlain : Text → Prop
  | parts {whole fraction : Text} (isWhole : IsWhole whole) (isFraction : IsFraction fraction) :
      IsPlain (whole ++ fraction)

theorem IsPlain.isNumber (h : IsPlain t) {exponent : Text} (he : IsExponent exponent)
    (negative : Bool) : IsNumber (signText negative ++ (t ++ exponent)) := by
  obtain ⟨hwhole, hfraction⟩ := h
  have hsign : signText negative ∈ [[], Text.ofString "-"] := by
    cases negative <;> decide
  have hnumber := IsNumber.parts hsign hwhole hfraction he
  rwa [List.append_assoc, List.append_assoc, ← List.append_assoc _ _ exponent] at hnumber

/-- No number but zero begins with a zero. -/
theorem head?_ofNat_ne {n : Nat} (hn : n ≠ 0) :
    (Text.ofNat n).head? ≠ some (CodePoint.ofChar '0') := by
  induction n using Nat.strongRecOn with
  | ind n ih =>
    rcases Nat.lt_or_ge n 10 with hlt | hge
    · have hdigits : ∀ n < 10, n ≠ 0 → (Text.ofNat n).head? ≠ some (CodePoint.ofChar '0') := by
        decide
      exact hdigits n hlt hn
    · -- The digits before the last one are those of a smaller number, which is not zero either.
      obtain ⟨last, hlast, _⟩ := ofNat_eq_append (k := 1) hge
      rw [hlast, List.head?_append_of_ne_nil _ (ofNat_ne_nil _)]
      exact ih _ (by omega) (by omega)

theorem isDigitRow_ofNat (n : Nat) : IsDigitRow (Text.ofNat n) := ⟨ofNat_ne_nil n, isAscii_ofNat n⟩

theorem isWhole_ofNat (n : Nat) : IsWhole (Text.ofNat n) := by
  refine ⟨isDigitRow_ofNat n, fun hzero => ?_⟩
  obtain rfl : n = 0 := by_contra fun hn => head?_ofNat_ne hn hzero
  decide

theorem isWhole_of_head? (ha : IsAscii digits) (hne : digits ≠ [])
    (hhead : digits.head? ≠ some (CodePoint.ofChar '0')) : IsWhole digits :=
  ⟨⟨hne, ha⟩, fun hzero => absurd hzero hhead⟩

/-- A point is put into digits so that a zero stands before it only if no digit does. -/
theorem isPlain_withPoint (ha : IsAscii digits) (hne : digits ≠ [])
    (hhead : digits.head? ≠ some (CodePoint.ofChar '0')) (place : Int) :
    IsPlain (Decimal.withPoint digits place) := by
  rw [Decimal.withPoint]
  split
  · have hrow : IsDigitRow (List.replicate (-place).toNat Text.zero ++ digits) :=
      ⟨by simp [hne], List.forall_mem_append.mpr ⟨isAscii_zeros _, ha⟩⟩
    have hplain := IsPlain.parts (isWhole_ofNat 0) (.point hrow)
    rwa [List.append_assoc]
  · split
    · have hrow : IsAscii (digits ++ List.replicate (place.toNat - digits.length) Text.zero) :=
        List.forall_mem_append.mpr ⟨ha, isAscii_zeros _⟩
      have hwhole := isWhole_of_head? hrow (by simp [hne])
        (by rwa [List.head?_append_of_ne_nil _ hne])
      have hplain := IsPlain.parts hwhole .none
      rwa [List.append_nil] at hplain
    · next hplace hlength =>
      -- The point stands between digits, some of them on either side.
      have hparts := List.forall_mem_append.mp
        ((List.take_append_drop place.toNat digits).symm ▸ ha)
      have hfront : digits.take place.toNat ≠ [] := by
        rw [Ne, List.take_eq_nil_iff, not_or]
        exact ⟨by omega, hne⟩
      have hback : digits.drop place.toNat ≠ [] := by
        rw [Ne, List.drop_eq_nil_iff]
        omega
      have hfirst : (digits.take place.toNat).head? = digits.head? := by
        rw [← List.head?_append_of_ne_nil _ hfront, List.take_append_drop]
      have hplain := IsPlain.parts (isWhole_of_head? hparts.1 hfront (hfirst ▸ hhead))
        (.point ⟨hback, hparts.2⟩)
      rwa [← List.append_assoc] at hplain

theorem IsPlain.withFraction (h : IsPlain t) : IsPlain (withFraction t) := by
  rw [Binary64.withFraction]
  split
  · exact h
  · next hpoint =>
    obtain ⟨hwhole, hfraction⟩ := h
    cases hfraction with
    | none =>
      rw [List.append_nil]
      exact .parts hwhole (.point (isDigitRow_ofNat 0))
    | point h => exact absurd (by simp [Text.ofString]) hpoint

theorem isExponent_exponentText (n : Int) : IsExponent (exponentText n) := by
  rw [exponentText, List.append_assoc]
  refine .power (by decide) ?_ ⟨?_, List.forall_mem_append.mpr ⟨isAscii_zeros _, isAscii_ofNat _⟩⟩
  · split <;> decide
  · simp [ofNat_ne_nil]

/-- The shortest digits of a number do not begin with a zero. -/
theorem head?_shortestDigits (h : IsCanonical m e) (hm : m ≠ 0) :
    (shortestDigits m e).1.head? ≠ some (CodePoint.ofChar '0') := by
  obtain ⟨c, hnegative, hc, hshortest⟩ := exists_best h hm
  have hzero : c.coefficient ≠ 0 := by
    intro hzero
    rw [ofDecimal, if_pos (Or.inl hzero), hnegative] at hc
    cases hc
    exact hm rfl
  rw [hshortest]
  -- Only zeros at the end are dropped, so what is left begins as the coefficient does.
  obtain ⟨k, hk⟩ := exists_dropZeros c.digits
  by_cases hnil : dropZeros c.digits = []
  · simp [hnil]
  · rw [← List.head?_append_of_ne_nil _ hnil, ← hk]
    exact head?_ofNat_ne hzero

theorem isNumber_magnitudeText (h : IsCanonical m e) (hm : m ≠ 0) (negative : Bool) :
    IsNumber (signText negative ++ magnitudeText m e) := by
  obtain ⟨digits, place, hdigits, ha, hne, _⟩ := exists_shortestDigits h hm
  have hhead := head?_shortestDigits h hm
  rw [hdigits] at hhead
  rw [magnitudeText, hdigits]
  simp only
  split
  · have hplain := (isPlain_withPoint ha hne hhead place).withFraction.isNumber .none negative
    rwa [List.append_nil] at hplain
  · refine IsPlain.isNumber ?_ (isExponent_exponentText _) negative
    split
    · have hplain := IsPlain.parts (isWhole_of_head? ha hne hhead) .none
      rwa [List.append_nil] at hplain
    · exact isPlain_withPoint ha hne hhead 1

theorem isNumber_text {x : Binary64} (hx : x.isFinite = true) : IsNumber x.text := by
  cases x with
  | nan => cases hx
  | infinite s => cases hx
  | finite negative m e h =>
    rw [Binary64.text]
    split
    · have hplain := (IsPlain.parts (isWhole_ofNat 0) (.point (isDigitRow_ofNat 0))).isNumber .none
        negative
      rwa [List.append_nil] at hplain
    · next hm => exact isNumber_magnitudeText h hm negative

theorem ofInt_eq (n : Int) : Text.ofInt n = signText (decide (n < 0)) ++ Text.ofNat n.natAbs := by
  cases n with
  | ofNat n => simp [Text.ofInt, signText]
  | negSucc n =>
    rw [decide_eq_true (Int.negSucc_lt_zero n)]
    rfl

theorem isNumber_ofInt (n : Int) : IsNumber (Text.ofInt n) := by
  have hplain := IsPlain.parts (isWhole_ofNat n.natAbs) .none
  have hnumber := hplain.isNumber .none (decide (n < 0))
  rwa [List.append_nil, List.append_nil, ← ofInt_eq] at hnumber

end Print

end Json

end SvgDeck
