/-
Qualified ids can be taken apart again.

An author's id may hold underscores anywhere, and may itself look like a qualified id.
What makes qualified ids unique all the same is that a numeral holds no underscore, so
the last qualifier of a qualified id is the one that was put in:

* `rootOf_qualify` — the root of a qualified id is the id it was made of;
* `qualify_inj` — equal qualified ids have equal roots and equal positions.
-/
import SvgDeck.FlowId
import Mathlib.Data.List.Basic

namespace SvgDeck

namespace Text

/-! ### Cutting at a mark -/

theorem after?_append (front rest : Text) : after? front (front ++ rest) = some rest := by
  induction front with
  | nil => rfl
  | cons a front ih => simpa [after?] using ih

/-- A text is cut where the mark stands if nothing before it can start a mark. -/
theorem cut?_append {m : CodePoint} {mark before rest : Text} (h : m ∉ before) :
    cut? (m :: mark) (before ++ (m :: mark ++ rest)) = some (before, rest) := by
  induction before with
  | nil =>
    have hat : after? (m :: mark) (m :: (mark ++ rest)) = some rest :=
      after?_append (m :: mark) rest
    rw [List.nil_append, List.cons_append, cut?, hat]
  | cons c before ih =>
    -- No mark starts at `c`, so the cut is that of what comes behind it.
    obtain ⟨hc, hb⟩ := not_or.mp (fun hm => h (List.mem_cons.mpr hm))
    have hno : after? (m :: mark) (c :: (before ++ (m :: mark ++ rest))) = none := by
      rw [after?, if_neg hc]
    rw [List.cons_append, cut?, hno, ih hb]
    rfl

/-! ### Numerals -/

theorem ofNat_injective {m n : Nat} (h : ofNat m = ofNat n) : m = n := by
  have hd : Nat.toDigits 10 m = Nat.toDigits 10 n :=
    List.map_injective_iff.mpr (fun _ _ => CodePoint.ofChar_injective) h
  rw [← Nat.ofDigitChars_ten_toDigits (n := m), hd, Nat.ofDigitChars_ten_toDigits]

theorem not_mem_ofNat {c : Char} (hc : c.isDigit = false) (n : Nat) :
    CodePoint.ofChar c ∉ ofNat n := by
  intro h
  obtain ⟨d, hd, hdc⟩ := List.mem_map.mp h
  have hdig := Nat.isDigit_of_mem_toDigits (by decide) (by decide) hd
  rw [CodePoint.ofChar_injective hdc, hc] at hdig
  cases hdig

end Text

/-! ### Taking qualified ids apart -/

variable {root root' numeral numeral' : Text}

/-- The last qualifier is the one that stands before the numeral. -/
theorem cutLast?_append_numeral (root : Text) (h : CodePoint.ofChar '_' ∉ numeral) :
    Text.cutLast? qualifier (root ++ qualifier ++ numeral) = some (root, numeral) := by
  -- The last qualifier of the id is the first one of the reversed id.
  have hq : qualifier.reverse = qualifier := by decide
  have hcut : Text.cut? qualifier (numeral.reverse ++ (qualifier ++ root.reverse)) =
      some (numeral.reverse, root.reverse) :=
    Text.cut?_append fun hm => h (List.mem_reverse.mp hm)
  rw [Text.cutLast?, List.reverse_append, List.reverse_append, hq, hcut]
  simp

theorem rootOf_append_numeral (root : Text) (h : CodePoint.ofChar '_' ∉ numeral) :
    rootOf (root ++ qualifier ++ numeral) = root := by
  rw [rootOf, cutLast?_append_numeral root h]

theorem append_numeral_inj (h : CodePoint.ofChar '_' ∉ numeral)
    (h' : CodePoint.ofChar '_' ∉ numeral') :
    root ++ qualifier ++ numeral = root' ++ qualifier ++ numeral' ↔
      root = root' ∧ numeral = numeral' := by
  constructor
  · intro heq
    have hcut := cutLast?_append_numeral root h
    rw [heq, cutLast?_append_numeral root' h'] at hcut
    obtain ⟨hr, hn⟩ := Prod.mk.inj (Option.some.inj hcut)
    exact ⟨hr.symm, hn.symm⟩
  · rintro ⟨rfl, rfl⟩
    rfl

theorem rootOf_qualify (root : Text) (position : Nat) : rootOf (qualify root position) = root :=
  rootOf_append_numeral root (Text.not_mem_ofNat rfl position)

theorem qualify_inj {n n' : Nat} :
    qualify root n = qualify root' n' ↔ root = root' ∧ n = n' := by
  have hmarks : ∀ k, CodePoint.ofChar '_' ∉ Text.ofNat k := Text.not_mem_ofNat rfl
  rw [qualify, qualify, append_numeral_inj (hmarks n) (hmarks n')]
  exact and_congr_right fun _ => ⟨Text.ofNat_injective, congrArg _⟩

end SvgDeck
