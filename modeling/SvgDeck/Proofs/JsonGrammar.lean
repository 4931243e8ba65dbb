/-
JSON in print is JSON of the grammar.

What is neither an array nor an object in a value is one of its atoms (`Json.atoms`).  Strings and
finite numbers in print are those of the grammar.  So a value in print is JSON if each of its atoms is (`isJson_print`), and

* `isJson_dialectWords` — every value in print is JSON in the dialect.
-/
import SvgDeck.Proofs.JsonPrinter

namespace SvgDeck

open Text

namespace Json

/-! ### Atoms -/

mutual

/-- The atoms that a value is made of. -/
def atoms : Json → List Json
  | .array items => atomsOfItems items
  | .object members => atomsOfMembers members
  | v => [v]

def atomsOfItems : List Json → List Json
  | [] => []
  | item :: items => atoms item ++ atomsOfItems items

def atomsOfMembers : List (Text × Json) → List Json
  | [] => []
  | (_, value) :: members => atoms value ++ atomsOfMembers members

end

/-- Whether a value is a string, a finite number or a truth value. -/
def isValued : Json → Bool
  | .bool _ => true
  | .int _ => true
  | .float x => x.isFinite
  | .text _ => true
  | _ => false

section Atoms

variable {items : List Json} {members : List (Text × Json)}

theorem atoms_array : (Json.array items).atoms = items.flatMap atoms := by
  rw [atoms]
  induction items with
  | nil => rfl
  | cons item items ih => rw [atomsOfItems, ih, List.flatMap_cons]

theorem atoms_object : (Json.object members).atoms = members.flatMap (·.2.atoms) := by
  rw [atoms]
  induction members with
  | nil => rfl
  | cons m members ih => rw [atomsOfMembers, ih, List.flatMap_cons]

theorem atoms_of_isAtom {v : Json} (h : v.isAtom = true) : v.atoms = [v] := by
  cases v with
  | array items => cases h
  | object members => cases h
  | _ => rfl

theorem forall_mem_atoms_array {P : Json → Prop} :
    (∀ a ∈ (array items).atoms, P a) ↔ ∀ item ∈ items, ∀ a ∈ item.atoms, P a := by
  rw [atoms_array, List.forall_mem_flatMap]

theorem forall_mem_atoms_object {P : Json → Prop} :
    (∀ a ∈ (object members).atoms, P a) ↔ ∀ m ∈ members, ∀ a ∈ m.2.atoms, P a := by
  rw [atoms_object, List.forall_mem_flatMap]

theorem isAtom_of_mem_atoms {v : Json} : ∀ a ∈ v.atoms, a.isAtom = true := by
  induction v using induction_on with
  | atom v hv =>
    rw [atoms_of_isAtom hv]
    exact List.forall_mem_singleton.mpr hv
  | array items ih =>
    exact forall_mem_atoms_array.mpr ih
  | object members ih =>
    exact forall_mem_atoms_object.mpr ih

end Atoms

/-! ### Strings in print -/

section Strings

theorem isUnit_escape (c : CodePoint) : IsUnit (escape c) := by
  have hletter : ∀ e ∈ Text.ofString "\"\\/bfnrt", IsUnit [CodePoint.ofChar '\\', e] :=
    fun e he => .letter he
  rw [escape]
  split_ifs with hquote hbackslash hline hreturn htab hback hfeed hcontrol
  · exact hletter _ (by decide)
  · exact hletter _ (by decide)
  · exact hletter _ (by decide)
  · exact hletter _ (by decide)
  · exact hletter _ (by decide)
  · exact hletter _ (by decide)
  · exact hletter _ (by decide)
  · have hdigits : ∀ n < 0x20, (Text.hex 4 n).length = 4 ∧
        ∀ d ∈ Text.hex 4 n, d.hexDigit?.isSome = true := by decide
    obtain ⟨hlength, hhex⟩ := hdigits c.val hcontrol
    exact .code hlength hhex
  · exact .plain (Nat.le_of_not_lt hcontrol) hquote hbackslash

theorem isString_printText (t : Text) : IsString (printText t) := by
  rw [printText, List.flatMap_def]
  exact .quoted (List.forall_mem_map.mpr fun c _ => isUnit_escape c)

end Strings

/-! ### Values in print -/

section Values

variable {words words' : List Text} {ph : Phrase} {p : Part} {t left : Text} {parts : List Text}
  {v : Json}

theorem IsPhrase.mono (hwords : words ⊆ words') (h : IsPhrase words ph t) :
    IsPhrase words' ph t := by
  induction h with
  | word h => exact .word (hwords h)
  | number h => exact .number h
  | text h => exact .text h
  | emptyArray h => exact .emptyArray h
  | array _ ih => exact .array ih
  | emptyObject h => exact .emptyObject h
  | object _ ih => exact .object ih
  | item white _ white' ih => exact .item white ih white'
  | member white isString white' _ ih => exact .member white isString white' ih
  | last _ ih => exact .last ih
  | more _ _ ih ihrest => exact .more ih ihrest

theorem isWhite_nil : IsWhite [] := List.forall_mem_nil _

theorem isWhite_blank : IsWhite " " := by
  unfold IsWhite
  decide

/-- Parts that are joined are a row; the blank behind a comma belongs to the next part. -/
theorem isPhrase_row_join (hne : parts ≠ [])
    (h : ∀ t ∈ parts, ∀ left, IsWhite left → IsPhrase words (.part p) (left ++ t))
    (hleft : IsWhite left) : IsPhrase words (.row p) (left ++ Text.join ", " parts) := by
  induction parts generalizing left with
  | nil => exact absurd rfl hne
  | cons t parts ih =>
    obtain ⟨ht, hparts⟩ := List.forall_mem_cons.mp h
    cases parts with
    | nil =>
      rw [Text.join, List.intercalate_singleton]
      exact .last (ht left hleft)
    | cons next parts =>
      have hmore := IsPhrase.more (ht left hleft)
        (ih (List.cons_ne_nil _ _) hparts isWhite_blank)
      have hjoin : left ++ Text.join ", " (t :: next :: parts) =
          left ++ t ++ "," ++ (" " ++ Text.join ", " (next :: parts)) := by
        simp [Text.join, Text.ofString]
      rwa [hjoin]

theorem isPhrase_item (h : IsPhrase words .value t) (hleft : IsWhite left) :
    IsPhrase words (.part .item) (left ++ t) := by
  have hitem := IsPhrase.item hleft h isWhite_nil
  rwa [List.append_nil] at hitem

theorem isPhrase_member (key : Text) (h : IsPhrase words .value t) (hleft : IsWhite left) :
    IsPhrase words (.part .member) (left ++ (printText key ++ ": " ++ t)) := by
  have hmember := IsPhrase.member hleft (isString_printText key) isWhite_nil
    (isPhrase_item h isWhite_blank)
  have hcolon : Text.ofString ": " = Text.ofString ":" ++ Text.ofString " " := rfl
  rw [hcolon]
  simpa using hmember

/-- **A value in print is a value of the grammar**, if its atoms in print are. -/
theorem isPhrase_print (v : Json) (h : ∀ a ∈ v.atoms, IsPhrase words .value a.print) :
    IsPhrase words .value v.print := by
  induction v using induction_on with
  | atom v hv => exact h v (by simp [atoms_of_isAtom hv])
  | array items ih =>
    rw [forall_mem_atoms_array] at h
    rw [print, bracketed, printItems_eq_map]
    rcases eq_or_ne items [] with rfl | hne
    · exact .emptyArray isWhite_nil
    · rw [← List.nil_append (Text.join _ _)]
      refine .array (isPhrase_row_join (by simpa using hne) ?_ isWhite_nil)
      exact List.forall_mem_map.mpr fun item hitem _ hleft =>
        isPhrase_item (ih item hitem (h item hitem)) hleft
  | object members ih =>
    rw [forall_mem_atoms_object] at h
    rw [print, bracketed, printMembers_eq_map]
    rcases eq_or_ne members [] with rfl | hne
    · exact .emptyObject isWhite_nil
    · rw [← List.nil_append (Text.join _ _)]
      refine .object (isPhrase_row_join (by simpa using hne) ?_ isWhite_nil)
      exact List.forall_mem_map.mpr fun m hm _ hleft =>
        isPhrase_member m.1 (ih m hm (h m hm)) hleft

theorem isJson_print (h : ∀ a ∈ v.atoms, IsPhrase words .value a.print) :
    IsJson words v.print := isPhrase_item (isPhrase_print v h) isWhite_nil

/-- The names that stand for truth values. -/
def valueWords : List Text := ["true", "false"]

theorem isPhrase_print_of_isValued (h : v.isValued = true) : IsPhrase valueWords .value v.print := by
  cases v with
  | null => cases h
  | bool b => cases b <;> exact .word (by decide)
  | int n => exact .number (isNumber_ofInt n)
  | float x =>
    have hnumber := isNumber_text h
    cases x with
    | nan => cases h
    | infinite s => cases h
    | finite negative m e canonical => exact .number hnumber
  | text t => exact .text (isString_printText t)
  | array items => cases h
  | object members => cases h

/-- The names of the dialect, which has one for each number without a numeral. -/
def dialectWords : List Text := Json.words.map Prod.fst

/-- An atom that is no string, finite number or truth value is printed as a name. -/
theorem print_mem_dialectWords (hatom : v.isAtom = true) (h : v.isValued ≠ true) :
    v.print ∈ dialectWords := by
  cases v with
  | null => decide
  | float x =>
    cases x with
    | nan => decide
    | infinite s => cases s <;> decide
    | finite negative m e canonical => exact absurd rfl h
  | array items => cases hatom
  | object members => cases hatom
  | _ => exact absurd rfl h

/-- **Every value in print is JSON in the dialect.** -/
theorem isJson_dialectWords (v : Json) : IsJson dialectWords v.print := by
  refine isJson_print fun a ha => ?_
  by_cases hvalued : a.isValued = true
  · exact (isPhrase_print_of_isValued hvalued).mono (by decide)
  · exact .word (print_mem_dialectWords (isAtom_of_mem_atoms a ha) hvalued)

end Values

end Json

end SvgDeck
