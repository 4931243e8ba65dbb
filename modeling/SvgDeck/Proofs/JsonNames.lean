/-
The names in JSON.

A name that a value is printed with stands outside of its strings, and there the grammar has only
its own names and the marks of numbers and brackets.  So whether a value in print is JSON depends
on its atoms alone (`isJson_print_iff`):

* `isStandard_print_iff` — the print is JSON of the standard exactly if its numbers are finite;
* `isJson_valueWords_iff` — it is JSON without the name `null` exactly if, besides, no atom is null.
-/
import SvgDeck.Proofs.JsonGrammar

namespace SvgDeck

namespace Json

/-! ### What stands outside of strings -/

/-- Where a scanner of JSON stands. -/
inductive Quoting where
  | outside
  | inside
  | escaped

/-- The code points that stand outside of strings, without the quotes. -/
def bare : Quoting → Text → Text
  | _, [] => []
  | .outside, c :: t => if c = CodePoint.ofChar '"' then bare .inside t else c :: bare .outside t
  | .inside, c :: t =>
    if c = CodePoint.ofChar '"' then bare .outside t
    else if c = CodePoint.ofChar '\\' then bare .escaped t
    else bare .inside t
  | .escaped, _ :: t => bare .inside t

/-- The text ends outside of strings, and shows these code points there. -/
def Shows (t shown : Text) : Prop := ∀ rest, bare .outside (t ++ rest) = shown ++ bare .outside rest

section Bare

variable {words : List Text} {ph : Phrase} {s t shown shown' : Text} {parts : List Text} {v : Json}

theorem Shows.append (hs : Shows s shown) (ht : Shows t shown') :
    Shows (s ++ t) (shown ++ shown') := by
  intro rest
  rw [List.append_assoc, hs, ht, List.append_assoc]

theorem Shows.bare_eq (h : Shows t shown) : bare .outside t = shown := by
  have hend := h []
  rwa [List.append_nil, bare, List.append_nil] at hend

/-- Without a quote a text shows itself. -/
theorem shows_self (h : CodePoint.ofChar '"' ∉ t) : Shows t t := by
  intro rest
  induction t with
  | nil => rfl
  | cons c t ih =>
    rw [List.mem_cons, not_or] at h
    rw [List.cons_append, bare, if_neg (Ne.symm h.1), ih h.2, List.cons_append]

theorem bare_inside_plain {c : CodePoint} (hquote : c ≠ CodePoint.ofChar '"')
    (hbackslash : c ≠ CodePoint.ofChar '\\') (rest : Text) :
    bare .inside (c :: rest) = bare .inside rest := by
  rw [bare, if_neg hquote, if_neg hbackslash]

theorem bare_inside_escape (c : CodePoint) (rest : Text) :
    bare .inside (CodePoint.ofChar '\\' :: c :: rest) = bare .inside rest := by
  rw [bare, if_neg (by decide), if_pos rfl, bare]

/-- A code point as it is written does not leave a string. -/
theorem IsUnit.bare (h : IsUnit t) (rest : Text) :
    Json.bare .inside (t ++ rest) = Json.bare .inside rest := by
  cases h with
  | plain _ hquote hbackslash => exact bare_inside_plain hquote hbackslash rest
  | letter _ => exact bare_inside_escape _ rest
  | @code digits hlength hhex =>
    have hdigit : ∀ c : CodePoint, c.hexDigit?.isSome = true →
        c ≠ CodePoint.ofChar '"' ∧ c ≠ CodePoint.ofChar '\\' := by
      rintro c hc
      constructor
      · rintro rfl
        revert hc
        decide
      · rintro rfl
        revert hc
        decide
    -- The scanner steps over the letter; the digits behind it are plain, however many there are.
    rw [List.cons_append, List.cons_append, bare_inside_escape]
    clear hlength
    induction digits with
    | nil => rfl
    | cons c digits ih =>
      obtain ⟨hc, hdigits⟩ := List.forall_mem_cons.mp hhex
      obtain ⟨hquote, hbackslash⟩ := hdigit c hc
      rw [List.cons_append, bare_inside_plain hquote hbackslash, ih hdigits]

/-- A string shows nothing. -/
theorem IsString.shows (h : IsString t) : Shows t [] := by
  obtain ⟨hunits⟩ := h
  rename_i units
  intro rest
  have hinside : ∀ rest, Json.bare .inside (units.flatten ++ rest) = Json.bare .inside rest := by
    induction units with
    | nil => exact fun rest => rfl
    | cons u units ih =>
      obtain ⟨hu, hunits⟩ := List.forall_mem_cons.mp hunits
      intro rest
      rw [List.flatten_cons, List.append_assoc, hu.bare, ih hunits]
  have htext : Text.ofString "\"" ++ units.flatten ++ Text.ofString "\"" ++ rest =
      CodePoint.ofChar '"' :: (units.flatten ++ CodePoint.ofChar '"' :: rest) := by
    simp [Text.ofString]
  rw [htext, Json.bare, if_pos rfl, hinside, Json.bare, if_pos rfl, List.nil_append]

/-- White space, and the marks of numbers and brackets. -/
def marks : Text := " \t\n\r+-.eE[]\x7b\x7d,:"

/-- What the grammar has outside of strings: digits, marks and its names. -/
def IsBare (words : List Text) (c : CodePoint) : Prop :=
  c.isAsciiDigit = true ∨ c ∈ marks ∨ ∃ w ∈ words, c ∈ w

instance (words : List Text) (c : CodePoint) : Decidable (IsBare words c) := by
  unfold IsBare
  infer_instance

/-- Outside of strings the text shows what the grammar has there. -/
def ShowsBare (words : List Text) (t : Text) : Prop :=
  ∃ shown, Shows t shown ∧ ∀ c ∈ shown, IsBare words c

theorem ShowsBare.append (hs : ShowsBare words s) (ht : ShowsBare words t) :
    ShowsBare words (s ++ t) := by
  obtain ⟨shown, hs, hbare⟩ := hs
  obtain ⟨shown', ht, hbare'⟩ := ht
  exact ⟨shown ++ shown', hs.append ht, List.forall_mem_append.mpr ⟨hbare, hbare'⟩⟩

theorem showsBare_of_forall (h : ∀ c ∈ t, c.isAsciiDigit = true ∨ c ∈ marks) :
    ShowsBare words t := by
  refine ⟨t, shows_self fun hquote => ?_, fun c hc => (h c hc).imp_right Or.inl⟩
  exact absurd (h _ hquote) (by decide)

theorem showsBare_of_marks (h : ∀ c ∈ t, c ∈ marks) : ShowsBare words t :=
  showsBare_of_forall fun c hc => Or.inr (h c hc)

/-- A text among some that are made of marks. -/
theorem showsBare_of_mem {texts : List Text} (h : ∀ s ∈ texts, ∀ c ∈ s, c ∈ marks)
    (ht : t ∈ texts) : ShowsBare words t := showsBare_of_marks (h t ht)

theorem IsWhite.showsBare (h : IsWhite t) : ShowsBare words t := by
  have hwhite : ∀ c ∈ Text.ofString " \t\n\r", c ∈ marks := by decide
  exact showsBare_of_marks fun c hc => hwhite c (h c hc)

theorem IsDigitRow.showsBare (h : IsDigitRow t) : ShowsBare words t :=
  showsBare_of_forall fun c hc => Or.inl (h.2 c hc)

theorem IsNumber.showsBare (h : IsNumber t) : ShowsBare words t := by
  obtain ⟨hsign, hwhole, hfraction, hexponent⟩ := h
  -- Sign, digits, fraction and exponent, one after the other.
  refine (((showsBare_of_mem (by decide) hsign).append hwhole.1.showsBare).append ?_).append ?_
  · cases hfraction with
    | none => exact showsBare_of_marks (List.forall_mem_nil _)
    | point h => exact (showsBare_of_marks (by decide)).append h.showsBare
  · cases hexponent with
    | none => exact showsBare_of_marks (List.forall_mem_nil _)
    | power hletter hsign h =>
      exact ((showsBare_of_mem (by decide) hletter).append
        (showsBare_of_mem (by decide) hsign)).append h.showsBare

theorem IsString.showsBare (h : IsString t) : ShowsBare words t :=
  ⟨[], h.shows, List.forall_mem_nil _⟩

/-- A phrase between two brackets. -/
theorem ShowsBare.bracketed (h : ShowsBare words t) {left right : Text}
    (hleft : ∀ c ∈ left, c ∈ marks) (hright : ∀ c ∈ right, c ∈ marks) :
    ShowsBare words (left ++ t ++ right) :=
  ((showsBare_of_marks hleft).append h).append (showsBare_of_marks hright)

/-- **Outside of strings the grammar has its own names and marks alone.** -/
theorem IsPhrase.showsBare (hwords : ∀ w ∈ words, CodePoint.ofChar '"' ∉ w)
    (h : IsPhrase words ph t) : ShowsBare words t := by
  induction h with
  | @word t h => exact ⟨t, shows_self (hwords t h), fun c hc => Or.inr (Or.inr ⟨t, h, hc⟩)⟩
  | number h => exact h.showsBare
  | text h => exact h.showsBare
  | emptyArray h => exact h.showsBare.bracketed (by decide) (by decide)
  | array _ ih => exact ih.bracketed (by decide) (by decide)
  | emptyObject h => exact h.showsBare.bracketed (by decide) (by decide)
  | object _ ih => exact ih.bracketed (by decide) (by decide)
  | item white _ white' ih => exact (white.showsBare.append ih).append white'.showsBare
  | member white isString white' _ ih =>
    have hcolon : ShowsBare words ":" := showsBare_of_marks (by decide)
    exact (((white.showsBare.append isString.showsBare).append white'.showsBare).append hcolon).append
      ih
  | last _ ih => exact ih
  | more _ _ ih ihrest =>
    have hcomma : ShowsBare words "," := showsBare_of_marks (by decide)
    exact (ih.append hcomma).append ihrest

/-- What a value in print shows outside of strings. -/
theorem exists_shows_print (v : Json) : ∃ shown, Shows v.print shown := by
  obtain ⟨shown, hshown, _⟩ := (isJson_dialectWords v).showsBare (by decide)
  exact ⟨shown, hshown⟩

/-- Parts that are joined show what each of them shows. -/
theorem bare_subset_join {part : Text} (h : ∀ part ∈ parts, ∃ shown, Shows part shown)
    (hpart : part ∈ parts) (rest : Text) :
    bare .outside part ⊆ bare .outside (Text.join ", " parts ++ rest) := by
  induction parts with
  | nil => cases hpart
  | cons first parts ih =>
    obtain ⟨⟨shown, hshown⟩, hparts⟩ := List.forall_mem_cons.mp h
    have hfirst : ∀ rest, bare .outside first ⊆ bare .outside (first ++ rest) := by
      intro rest
      rw [hshown.bare_eq, hshown]
      exact List.subset_append_left _ _
    cases parts with
    | nil =>
      obtain rfl := List.mem_singleton.mp hpart
      rw [Text.join, List.intercalate_singleton]
      exact hfirst rest
    | cons next parts =>
      have hjoin : Text.join ", " (first :: next :: parts) ++ rest =
          first ++ (", " ++ (Text.join ", " (next :: parts) ++ rest)) := by
        simp [Text.join, Text.ofString]
      rw [hjoin]
      rcases List.mem_cons.mp hpart with rfl | hpart
      · exact hfirst _
      · have hcomma : Shows ", " ", " := shows_self (by decide)
        rw [hshown, hcomma]
        exact List.subset_append_of_subset_right _
          (List.subset_append_of_subset_right _ (ih hparts hpart))

theorem bare_subset_bracketed {part : Text} {left right : CodePoint}
    (hleft : left ≠ CodePoint.ofChar '"') (h : ∀ part ∈ parts, ∃ shown, Shows part shown)
    (hpart : part ∈ parts) :
    bare .outside part ⊆ bare .outside (bracketed left right parts) := by
  rw [bracketed, List.append_assoc, List.singleton_append, bare, if_neg hleft]
  exact List.subset_cons_of_subset _ (bare_subset_join h hpart _)

/-- A member shows what its value shows. -/
theorem shows_member (key : Text) (h : Shows t shown) :
    Shows (printText key ++ ": " ++ t) (": " ++ shown) := by
  have hkey := (isString_printText key).shows
  have hcolon : Shows ": " ": " := shows_self (by decide)
  simpa using (hkey.append hcolon).append h

/-- **A value in print shows what its atoms show.** -/
theorem bare_print_subset {a : Json} (ha : a ∈ v.atoms) :
    bare .outside a.print ⊆ bare .outside v.print := by
  induction v using induction_on with
  | atom v hv =>
    rw [atoms_of_isAtom hv, List.mem_singleton] at ha
    exact ha ▸ List.Subset.refl _
  | array items ih =>
    rw [atoms_array] at ha
    obtain ⟨item, hitem, ha⟩ := List.mem_flatMap.mp ha
    refine List.Subset.trans (ih item hitem ha) ?_
    rw [print, printItems_eq_map]
    exact bare_subset_bracketed (by decide)
      (List.forall_mem_map.mpr fun item _ => exists_shows_print item)
      (List.mem_map_of_mem hitem)
  | object members ih =>
    rw [atoms_object] at ha
    obtain ⟨m, hm, ha⟩ := List.mem_flatMap.mp ha
    -- The key of a member shows nothing, so the value is seen through it.
    obtain ⟨shown, hshown⟩ := exists_shows_print m.2
    have hmember : bare .outside m.2.print ⊆
        bare .outside (printText m.1 ++ ": " ++ m.2.print) := by
      rw [(shows_member m.1 hshown).bare_eq, hshown.bare_eq]
      exact List.subset_append_right _ _
    refine List.Subset.trans (List.Subset.trans (ih m hm ha) hmember) ?_
    rw [print, printMembers_eq_map]
    refine bare_subset_bracketed (by decide) (List.forall_mem_map.mpr fun m _ => ?_)
      (List.mem_map_of_mem hm)
    obtain ⟨shown, hshown⟩ := exists_shows_print m.2
    exact ⟨_, shows_member m.1 hshown⟩

/-- Where the print of a value is JSON, its atoms show what the grammar has outside of strings. -/
theorem isBare_of_isJson (hwords : ∀ w ∈ words, CodePoint.ofChar '"' ∉ w)
    (h : IsJson words v.print) {a : Json} (ha : a ∈ v.atoms) :
    ∀ c ∈ bare .outside a.print, IsBare words c := by
  obtain ⟨shown, hshown, hbare⟩ := IsPhrase.showsBare hwords h
  intro c hc
  have hc := bare_print_subset ha hc
  rw [hshown.bare_eq] at hc
  exact hbare c hc

end Bare

/-! ### Which values are JSON in print -/

section Names

variable {words : List Text} {v : Json} {x : Binary64}

/-- **The print of a value is JSON** exactly if each of its atoms is a string, a finite number or a
truth value, or is printed as one of the names; every other name of the dialect must show
something that these names do not have. -/
theorem isJson_print_iff (hquote : ∀ w ∈ words, CodePoint.ofChar '"' ∉ w)
    (hvalues : valueWords ⊆ words)
    (hnames : ∀ name ∈ dialectWords, name ∈ words ∨ ∃ c ∈ bare .outside name, ¬IsBare words c) :
    IsJson words v.print ↔ ∀ a ∈ v.atoms, a.isValued = true ∨ a.print ∈ words := by
  constructor
  · intro h a ha
    refine or_iff_not_imp_left.mpr fun hvalued => ?_
    -- What is no value is printed as a name, and a name that is not allowed would give itself away.
    have hbare := isBare_of_isJson hquote h ha
    rcases hnames _ (print_mem_dialectWords (isAtom_of_mem_atoms a ha) hvalued) with
      hword | ⟨c, hc, hnot⟩
    · exact hword
    · exact absurd (hbare c hc) hnot
  · refine fun h => isJson_print fun a ha => ?_
    rcases h a ha with hvalued | hword
    · exact (isPhrase_print_of_isValued hvalued).mono hvalues
    · exact .word hword

/-- A number that is not finite has a name that the standard does not have. -/
theorem isFinite_of_print_mem (h : (Json.float x).print ∈ standardWords) : x.isFinite = true := by
  cases x with
  | nan => exact absurd h (by decide)
  | infinite s => cases s <;> exact absurd h (by decide)
  | finite negative m e canonical => rfl

theorem isValued_of_print_mem (hatom : v.isAtom = true) (h : v.print ∈ valueWords) :
    v.isValued = true := by
  have hstandard : v.print ∈ standardWords := List.mem_cons_of_mem _ h
  cases v with
  | null => exact absurd h (by decide)
  | float x => exact isFinite_of_print_mem hstandard
  | array items => cases hatom
  | object members => cases hatom
  | _ => rfl

/-- The print is JSON of the standard exactly if no number is infinite or not a number. -/
theorem isStandard_print_iff :
    IsStandard v.print ↔ ∀ a ∈ v.atoms, a = .null ∨ a.isValued = true := by
  rw [IsStandard, isJson_print_iff (by decide) (by decide) (by decide)]
  refine forall₂_congr fun a ha => ?_
  constructor
  · rintro (hvalued | hword)
    · exact Or.inr hvalued
    · have hatom := isAtom_of_mem_atoms a ha
      cases a with
      | null => exact Or.inl rfl
      | float x => exact Or.inr (isFinite_of_print_mem hword)
      | array items => cases hatom
      | object members => cases hatom
      | _ => exact Or.inr rfl
  · rintro (rfl | hvalued)
    · exact Or.inr (by decide)
    · exact Or.inl hvalued

/-- Without the name of the empty value, no null is JSON in print either. -/
theorem isJson_valueWords_iff :
    IsJson valueWords v.print ↔ ∀ a ∈ v.atoms, a.isValued = true := by
  rw [isJson_print_iff (by decide) (by decide) (by decide)]
  refine forall₂_congr fun a ha => or_iff_left_of_imp ?_
  exact isValued_of_print_mem (isAtom_of_mem_atoms a ha)

end Names

end Json

end SvgDeck
