/-
Finding a text inside a text.

`cut?` divides a text around the first place where another one stands, and
`cutLast?` around the last.  What is returned is what stands before and behind it,
so the parts and the mark put together are the text again.
-/
import SvgDeck.Text.Basic

namespace SvgDeck.Text

theorem append_of_after? {front t rest : Text} (h : after? front t = some rest) :
    front ++ rest = t := by
  induction front generalizing t with
  | nil => simpa [after?] using h.symm
  | cons a front ih =>
    cases t with
    | nil => simp [after?] at h
    | cons b t =>
      simp only [after?] at h
      split at h
      · next hab => simp [hab, ih h]
      · cases h

/-- What stands before and behind the first `mark` in a text. -/
def cut? (mark : Text) : Text → Option (Text × Text)
  | [] => (after? mark []).map ([], ·)
  | c :: t =>
    match after? mark (c :: t) with
    | some rest => some ([], rest)
    | none => (cut? mark t).map fun (before, rest) => (c :: before, rest)

/-- What stands before and behind the last `mark` in a text. -/
def cutLast? (mark t : Text) : Option (Text × Text) :=
  (cut? mark.reverse t.reverse).map fun (rest, before) => (before.reverse, rest.reverse)

theorem append_of_cut? {mark t before rest : Text} (h : cut? mark t = some (before, rest)) :
    before ++ mark ++ rest = t := by
  induction t generalizing before with
  | nil =>
    obtain ⟨r, hr, he⟩ := Option.map_eq_some_iff.1 h
    cases he
    simpa using append_of_after? hr
  | cons c t ih =>
    simp only [cut?] at h
    split at h
    · next hr => cases h; simpa using append_of_after? hr
    · obtain ⟨⟨b, r⟩, hr, he⟩ := Option.map_eq_some_iff.1 h
      cases he
      simpa using ih hr

end SvgDeck.Text
