/-
Texts in the order in which they are first seen.

`FirstSeen l ds` builds `ds` up along with `l`: a text that was seen before changes
nothing, and a new one comes last.  `firstSeen_distinct` says that `Text.distinct`
gives this list.  It holds the same texts, none of them twice, so taking it again
changes nothing (`distinct_distinct`).
-/
import SvgDeck.Text.Basic
import Mathlib.Data.List.Induction
import Mathlib.Data.List.Nodup

namespace SvgDeck

/-- `ds` has the texts of `l`, each where it is seen first. -/
inductive FirstSeen : List Text → List Text → Prop
  | nil : FirstSeen [] []
  | seen {l ds : List Text} {t : Text} (h : FirstSeen l ds) (ht : t ∈ l) : FirstSeen (l ++ [t]) ds
  | fresh {l ds : List Text} {t : Text} (h : FirstSeen l ds) (ht : t ∉ l) :
      FirstSeen (l ++ [t]) (ds ++ [t])

namespace Text

@[simp] theorem mem_distinct {t : Text} {l : List Text} : t ∈ distinct l ↔ t ∈ l :=
  List.mem_eraseDups

theorem distinct_append_singleton (l : List Text) (t : Text) :
    distinct (l ++ [t]) = if t ∈ l then distinct l else distinct l ++ [t] := by
  rw [distinct, List.eraseDups_append]
  by_cases h : t ∈ l
  · rw [if_pos h]
    simp [distinct, List.removeAll, h]
  · rw [if_neg h]
    simp [distinct, List.removeAll, h, List.eraseDups_cons]

theorem firstSeen_distinct (l : List Text) : FirstSeen l (distinct l) := by
  -- The list grows on the right, as `FirstSeen` does.
  induction l using List.reverseRecOn with
  | nil => exact .nil
  | append_singleton l t ih =>
    rw [distinct_append_singleton]
    by_cases h : t ∈ l
    · rw [if_pos h]
      exact .seen ih h
    · rw [if_neg h]
      exact .fresh ih h

theorem nodup_distinct (l : List Text) : (distinct l).Nodup := by
  induction l using List.reverseRecOn with
  | nil => exact List.nodup_nil
  | append_singleton l t ih =>
    rw [distinct_append_singleton]
    by_cases h : t ∈ l
    · rw [if_pos h]
      exact ih
    · rw [if_neg h]
      refine List.nodup_append.mpr ⟨ih, List.nodup_singleton t, fun a ha b hb => ?_⟩
      rw [List.mem_singleton.mp hb]
      rintro rfl
      exact h (mem_distinct.mp ha)

theorem distinct_of_nodup {l : List Text} (h : l.Nodup) : distinct l = l := by
  induction l using List.reverseRecOn with
  | nil => rfl
  | append_singleton l t ih =>
    obtain ⟨hl, _, hdisj⟩ := List.nodup_append.mp h
    have ht : t ∉ l := fun hm => hdisj t hm t (List.mem_singleton_self t) rfl
    rw [distinct_append_singleton, if_neg ht, ih hl]

@[simp] theorem distinct_distinct (l : List Text) : distinct (distinct l) = distinct l :=
  distinct_of_nodup (nodup_distinct l)

end Text

/-- There is only one list of what is seen first. -/
theorem FirstSeen.eq_distinct {l ds : List Text} (h : FirstSeen l ds) : ds = Text.distinct l := by
  induction h with
  | nil => rfl
  | seen _ ht ih => rw [Text.distinct_append_singleton, if_pos ht, ih]
  | fresh _ ht ih => rw [Text.distinct_append_singleton, if_neg ht, ih]

end SvgDeck
