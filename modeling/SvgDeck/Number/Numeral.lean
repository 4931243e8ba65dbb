/-
Numerals: digits with an optional point.

A numeral is `digits`, `digits.`, `digits.digits` or `.digits`; the digits may be
of any script.  `Numeral.split?` takes the longest numeral off the front of a
text, and `append_of_split?` says that nothing is lost by it.
-/
import SvgDeck.Text.Digit

namespace SvgDeck

/-- A numeral as written: the digits before the point, and those after it if there is one. -/
structure Numeral where
  whole : Text
  fraction : Option Text
deriving DecidableEq

namespace Numeral

/-- The numeral's own text. -/
def text (n : Numeral) : Text :=
  match n.fraction with
  | none => n.whole
  | some f => n.whole ++ CodePoint.ofChar '.' :: f

/-- Whether the first code point is a digit. -/
def startsWithDigit (t : Text) : Bool := t.head?.any CodePoint.isDigit

/-- The longest numeral at the front of a text, and what follows it. -/
def split? (t : Text) : Option (Numeral × Text) :=
  let whole := t.takeWhile CodePoint.isDigit
  match t.dropWhile CodePoint.isDigit with
  | [] => if whole = [] then none else some (⟨whole, none⟩, [])
  | c :: rest =>
    if c = '.' ∧ (whole ≠ [] ∨ startsWithDigit rest) then
      some (⟨whole, some (rest.takeWhile CodePoint.isDigit)⟩, rest.dropWhile CodePoint.isDigit)
    else if whole = [] then none
    else some (⟨whole, none⟩, c :: rest)

theorem append_of_split? {t rest : Text} {n : Numeral} (h : split? t = some (n, rest)) :
    n.text ++ rest = t := by
  have ht := List.takeWhile_append_dropWhile (p := CodePoint.isDigit) (l := t)
  simp only [split?] at h
  split at h
  · next hd =>
    split at h
    · cases h
    · cases h
      simpa [text, hd] using ht
  · next c r hd =>
    rw [hd] at ht
    split at h
    · next hc =>
      cases h
      refine Eq.trans ?_ ht
      simp [text, hc.1]
    · split at h
      · cases h
      · cases h
        simpa [text] using ht

end Numeral

end SvgDeck
