/-
Tags, in print and read back.

`Tag.print` writes a tag with the values of its attributes escaped, and `readTags?` reads markup
that consists of tags, code point by code point: a quote ends a value and nothing else does, and
references in a value are resolved behind it.  A value in print holds none of the marks that
structure markup (`not_isMark_of_mem_escapeMarkup`), so

* `readTags?_print` — tags are read back as they are, whatever their attributes hold.
-/
import SvgDeck.Text.Escaped
import Mathlib.Data.List.Basic

namespace SvgDeck

open Text

/-! ### References -/

/-- The characters that have a reference, by the name of it. -/
def references : List (Text × Char) :=
  [("amp", '&'), ("lt", '<'), ("gt", '>'), ("quot", '"'), ("#x27", '\'')]

/-- What a reference stands for; one that is not known stays as it is written. -/
def resolve (name : Text) : Text :=
  match references.lookup name with
  | some c => [CodePoint.ofChar c]
  | none => CodePoint.ofChar '&' :: (name ++ [CodePoint.ofChar ';'])

/-- Resolves the references in a text; `name` is what was read of one that is not finished. -/
def unescape : Option Text → Text → Text
  | none, [] => []
  | some name, [] => CodePoint.ofChar '&' :: name
  | none, c :: t => if c = CodePoint.ofChar '&' then unescape (some []) t else c :: unescape none t
  | some name, c :: t =>
    if c = CodePoint.ofChar ';' then resolve name ++ unescape none t
    else unescape (some (name ++ [c])) t

theorem unescape_escapeMarkup_append (c : CodePoint) (t : Text) :
    unescape none (c.escapeMarkup ++ t) = c :: unescape none t := by
  rw [CodePoint.escapeMarkup]
  split_ifs with hamp hlt hgt hquot hapos
  · rw [hamp]; rfl
  · rw [hlt]; rfl
  · rw [hgt]; rfl
  · rw [hquot]; rfl
  · rw [hapos]; rfl
  · rw [List.singleton_append, unescape, if_neg hamp]

/-- Escaping loses nothing. -/
theorem unescape_escapeMarkup (t : Text) : unescape none t.escapeMarkup = t := by
  induction t with
  | nil => rfl
  | cons c t ih =>
    rw [escapeMarkup, List.flatMap_cons, unescape_escapeMarkup_append]
    exact congrArg (c :: ·) ih

/-! ### Marks -/

/-- The marks that structure markup: brackets and quotes. -/
def CodePoint.isMark (c : CodePoint) : Bool :=
  c = '<' || c = '>' || c = '"' || c = '\''

/-- No escaped text holds a mark. -/
theorem not_isMark_of_mem_escapeMarkup {t : Text} {c : CodePoint} (h : c ∈ t.escapeMarkup) :
    c.isMark = false := by
  obtain ⟨d, _, hc⟩ := List.mem_flatMap.mp h
  -- All references are free of marks.
  have hreference : ∀ s : String, (ofString s).all (!·.isMark) = true → c ∈ ofString s →
      c.isMark = false := fun s hs hmem => by simpa using List.all_eq_true.mp hs c hmem
  rw [CodePoint.escapeMarkup] at hc
  split_ifs at hc with hamp hlt hgt hquot hapos
  · exact hreference _ (by decide) hc
  · exact hreference _ (by decide) hc
  · exact hreference _ (by decide) hc
  · exact hreference _ (by decide) hc
  · exact hreference _ (by decide) hc
  · rw [List.mem_singleton.mp hc]
    simp [CodePoint.isMark, hlt, hgt, hquot, hapos]

/-- A text that escaping leaves as it is. -/
def IsPlain (t : Text) : Prop := ∀ c ∈ t, c.escapeMarkup = [c]

theorem IsPlain.escapeMarkup_eq {t : Text} (h : IsPlain t) : t.escapeMarkup = t := by
  induction t with
  | nil => rfl
  | cons c t ih =>
    obtain ⟨hc, ht⟩ := List.forall_mem_cons.mp h
    rw [escapeMarkup, List.flatMap_cons, hc]
    exact congrArg (c :: ·) (ih ht)

theorem isPlain_append {s t : Text} : IsPlain (s ++ t) ↔ IsPlain s ∧ IsPlain t :=
  List.forall_mem_append

/-! ### Tags -/

/-- A tag with its attributes: it opens an element, closes one, or is an element of its own. -/
inductive Tag where
  | opening (name : Text) (attributes : List (Text × Text))
  | empty (name : Text) (attributes : List (Text × Text))
  | closing (name : Text)
deriving DecidableEq

namespace Tag

/-- The attributes in print, each behind a blank. -/
def printAttributes (attributes : List (Text × Text)) : Text :=
  attributes.flatMap fun (key, value) => " " ++ key ++ "=\"" ++ value.escapeMarkup ++ "\""

def print : Tag → Text
  | .opening name attributes => "<" ++ name ++ printAttributes attributes ++ ">"
  | .empty name attributes => "<" ++ name ++ printAttributes attributes ++ "/>"
  | .closing name => "</" ++ name ++ ">"

/-- What names are made of. -/
def isNamePart (c : CodePoint) : Bool := c.isAsciiAlphanumeric || c = '-'

def IsName (t : Text) : Prop := t ≠ [] ∧ ∀ c ∈ t, isNamePart c = true

/-- All names of a tag are names. -/
def IsNamed : Tag → Prop
  | .opening name attributes => IsName name ∧ ∀ a ∈ attributes, IsName a.1
  | .empty name attributes => IsName name ∧ ∀ a ∈ attributes, IsName a.1
  | .closing name => IsName name

/-! ### Reading -/

/-- Where a reader of markup stands, and what it has read of the tag it stands in. -/
inductive Place where
  | content
  | bracket
  | closing (name : Text)
  | name (name : Text)
  | key (name : Text) (attributes : List (Text × Text)) (key : Text)
  | equals (name : Text) (attributes : List (Text × Text)) (key : Text)
  | value (name : Text) (attributes : List (Text × Text)) (key value : Text)
  | behind (name : Text) (attributes : List (Text × Text))
  | slash (name : Text) (attributes : List (Text × Text))
  | broken

/-- The tags that were read, and the place of the reader. -/
structure Reader where
  tags : List Tag
  place : Place

/-- One step behind a name or a value, where another attribute may begin or the tag may end. -/
def stepBehind (tags : List Tag) (name : Text) (attributes : List (Text × Text)) (c : CodePoint) :
    Reader :=
  if c = CodePoint.ofChar ' ' then ⟨tags, .key name attributes []⟩
  else if c = CodePoint.ofChar '/' then ⟨tags, .slash name attributes⟩
  else if c = CodePoint.ofChar '>' then ⟨tags ++ [.opening name attributes], .content⟩
  else ⟨tags, .broken⟩

/-- Reads one code point. -/
def step : Reader → CodePoint → Reader
  | ⟨tags, .content⟩, c =>
    if c = CodePoint.ofChar '<' then ⟨tags, .bracket⟩ else ⟨tags, .broken⟩
  | ⟨tags, .bracket⟩, c =>
    if c = CodePoint.ofChar '/' then ⟨tags, .closing []⟩
    else if isNamePart c then ⟨tags, .name [c]⟩
    else ⟨tags, .broken⟩
  | ⟨tags, .closing name⟩, c =>
    if isNamePart c then ⟨tags, .closing (name ++ [c])⟩
    else if c = CodePoint.ofChar '>' then ⟨tags ++ [.closing name], .content⟩
    else ⟨tags, .broken⟩
  | ⟨tags, .name name⟩, c =>
    if isNamePart c then ⟨tags, .name (name ++ [c])⟩ else stepBehind tags name [] c
  | ⟨tags, .key name attributes key⟩, c =>
    if isNamePart c then ⟨tags, .key name attributes (key ++ [c])⟩
    else if c = CodePoint.ofChar '=' then ⟨tags, .equals name attributes key⟩
    else ⟨tags, .broken⟩
  | ⟨tags, .equals name attributes key⟩, c =>
    if c = CodePoint.ofChar '"' then ⟨tags, .value name attributes key []⟩ else ⟨tags, .broken⟩
  | ⟨tags, .value name attributes key value⟩, c =>
    if c = CodePoint.ofChar '"' then
      ⟨tags, .behind name (attributes ++ [(key, unescape none value)])⟩
    else ⟨tags, .value name attributes key (value ++ [c])⟩
  | ⟨tags, .behind name attributes⟩, c => stepBehind tags name attributes c
  | ⟨tags, .slash name attributes⟩, c =>
    if c = CodePoint.ofChar '>' then ⟨tags ++ [.empty name attributes], .content⟩
    else ⟨tags, .broken⟩
  | ⟨tags, .broken⟩, _ => ⟨tags, .broken⟩

/-- Reads markup that consists of tags. -/
def readTags? (markup : Text) : Option (List Tag) :=
  match markup.foldl step ⟨[], .content⟩ with
  | ⟨tags, .content⟩ => some tags
  | _ => none

section Runs

variable {tags : List Tag} {name key value t : Text} {attributes more : List (Text × Text)}

/-- A row of name parts is taken in where a name is read. -/
theorem foldl_of_isName {place : Text → Place}
    (hplace : ∀ s c, isNamePart c = true → step ⟨tags, place s⟩ c = ⟨tags, place (s ++ [c])⟩)
    (ht : ∀ c ∈ t, isNamePart c = true) (s : Text) :
    t.foldl step ⟨tags, place s⟩ = ⟨tags, place (s ++ t)⟩ := by
  induction t generalizing s with
  | nil => rw [List.foldl_nil, List.append_nil]
  | cons c t ih =>
    obtain ⟨hc, ht⟩ := List.forall_mem_cons.mp ht
    rw [List.foldl_cons, hplace s c hc, ih ht, List.append_assoc, List.singleton_append]

/-- A value goes on to the next quote. -/
theorem foldl_value (h : CodePoint.ofChar '"' ∉ t) (s : Text) :
    t.foldl step ⟨tags, .value name attributes key s⟩ =
      ⟨tags, .value name attributes key (s ++ t)⟩ := by
  induction t generalizing s with
  | nil => rw [List.foldl_nil, List.append_nil]
  | cons c t ih =>
    rw [List.mem_cons, not_or] at h
    rw [List.foldl_cons, step, if_neg (Ne.symm h.1), ih h.2, List.append_assoc,
      List.singleton_append]

/-- Past one attribute. -/
theorem foldl_attribute (hkey : IsName key) :
    (" " ++ key ++ "=\"" ++ value.escapeMarkup ++ "\"" : Text).foldl step
        ⟨tags, .behind name attributes⟩ =
      ⟨tags, .behind name (attributes ++ [(key, value)])⟩ := by
  have hquote : CodePoint.ofChar '"' ∉ value.escapeMarkup := fun h => by
    cases not_isMark_of_mem_escapeMarkup h
  have hstart : (ofString " ").foldl step ⟨tags, .behind name attributes⟩ =
      ⟨tags, .key name attributes []⟩ := rfl
  have hread : key.foldl step ⟨tags, .key name attributes []⟩ =
      ⟨tags, .key name attributes key⟩ := by
    refine foldl_of_isName (fun s c hc => ?_) hkey.2 []
    rw [step, if_pos hc]
  have hequals : (ofString "=\"").foldl step ⟨tags, .key name attributes key⟩ =
      ⟨tags, .value name attributes key []⟩ := rfl
  have hend : (ofString "\"").foldl step ⟨tags, .value name attributes key value.escapeMarkup⟩ =
      ⟨tags, .behind name (attributes ++ [(key, unescape none value.escapeMarkup)])⟩ := rfl
  rw [List.foldl_append, List.foldl_append, List.foldl_append, List.foldl_append, hstart, hread,
    hequals, foldl_value hquote, List.nil_append, hend, unescape_escapeMarkup]

theorem foldl_printAttributes (h : ∀ a ∈ more, IsName a.1) :
    (printAttributes more).foldl step ⟨tags, .behind name attributes⟩ =
      ⟨tags, .behind name (attributes ++ more)⟩ := by
  induction more generalizing attributes with
  | nil => rw [List.append_nil]; rfl
  | cons a more ih =>
    obtain ⟨ha, hmore⟩ := List.forall_mem_cons.mp h
    rw [printAttributes, List.flatMap_cons, List.foldl_append, foldl_attribute ha,
      ← printAttributes, ih hmore, List.append_assoc, List.singleton_append]

/-- The name of a tag is read up to what cannot be part of it, and the tag goes on behind it. -/
theorem foldl_name (hname : IsName name) {c : CodePoint} (hc : isNamePart c = false) (t : Text) :
    ("<" ++ name ++ c :: t : Text).foldl step ⟨tags, .content⟩ =
      (c :: t).foldl step ⟨tags, .behind name []⟩ := by
  obtain ⟨d, rest, rfl⟩ := List.exists_cons_of_ne_nil hname.1
  obtain ⟨hd, hrest⟩ := List.forall_mem_cons.mp hname.2
  have hslash : d ≠ CodePoint.ofChar '/' := by
    rintro rfl
    cases hd
  have hbracket : (ofString "<").foldl step ⟨tags, .content⟩ = ⟨tags, .bracket⟩ := rfl
  have hfirst : step ⟨tags, .bracket⟩ d = ⟨tags, .name [d]⟩ := by
    rw [step, if_neg hslash, if_pos hd]
  have hread : (d :: rest).foldl step ⟨tags, .bracket⟩ = ⟨tags, .name (d :: rest)⟩ := by
    rw [List.foldl_cons, hfirst]
    refine foldl_of_isName (fun s c hc => ?_) hrest [d]
    rw [step, if_pos hc]
  have hbehind : step ⟨tags, .name (d :: rest)⟩ c = step ⟨tags, .behind (d :: rest) []⟩ c := by
    rw [step, if_neg (by simp [hc]), step]
  rw [List.foldl_append, List.foldl_append, hbracket, hread, List.foldl_cons, hbehind,
    List.foldl_cons]

/-- Attributes and the end of their tag begin with what is no part of a name. -/
theorem exists_cons_printAttributes (attributes : List (Text × Text)) {e : CodePoint} (rest : Text)
    (he : isNamePart e = false) :
    ∃ c t, printAttributes attributes ++ e :: rest = c :: t ∧ isNamePart c = false := by
  cases attributes with
  | nil => exact ⟨e, rest, rfl, he⟩
  | cons a attributes => exact ⟨CodePoint.ofChar ' ', _, rfl, by decide⟩

theorem foldl_start (hname : IsName name) (hattributes : ∀ a ∈ attributes, IsName a.1)
    {e : CodePoint} {rest : Text} (he : isNamePart e = false) :
    ("<" ++ name ++ printAttributes attributes ++ e :: rest : Text).foldl step ⟨tags, .content⟩ =
      (e :: rest).foldl step ⟨tags, .behind name attributes⟩ := by
  obtain ⟨c, t, hct, hc⟩ := exists_cons_printAttributes attributes rest he
  rw [List.append_assoc, hct, foldl_name hname hc, ← hct, List.foldl_append,
    foldl_printAttributes hattributes, List.nil_append]

/-- Past one tag. -/
theorem foldl_print {tag : Tag} (h : tag.IsNamed) :
    tag.print.foldl step ⟨tags, .content⟩ = ⟨tags ++ [tag], .content⟩ := by
  have hslash : isNamePart (CodePoint.ofChar '/') = false := by decide
  have hbracket : isNamePart (CodePoint.ofChar '>') = false := by decide
  cases tag with
  | opening name attributes =>
    show ("<" ++ name ++ printAttributes attributes ++
      [CodePoint.ofChar '>'] : Text).foldl step _ = _
    rw [foldl_start h.1 h.2 hbracket]
    rfl
  | empty name attributes =>
    show ("<" ++ name ++ printAttributes attributes ++
      [CodePoint.ofChar '/', CodePoint.ofChar '>'] : Text).foldl step _ = _
    rw [foldl_start h.1 h.2 hslash]
    rfl
  | closing name =>
    have hstart : (ofString "</").foldl step ⟨tags, .content⟩ = ⟨tags, .closing []⟩ := rfl
    have hread : name.foldl step ⟨tags, .closing []⟩ = ⟨tags, .closing name⟩ := by
      refine foldl_of_isName (fun s c hc => ?_) h.2 []
      rw [step, if_pos hc]
    have hend : (ofString ">").foldl step ⟨tags, .closing name⟩ =
        ⟨tags ++ [.closing name], .content⟩ := rfl
    rw [print, List.foldl_append, List.foldl_append, hstart, hread, hend]

theorem foldl_flatMap_print {more : List Tag} (h : ∀ tag ∈ more, tag.IsNamed) :
    (more.flatMap print).foldl step ⟨tags, .content⟩ = ⟨tags ++ more, .content⟩ := by
  induction more generalizing tags with
  | nil => rw [List.append_nil]; rfl
  | cons tag more ih =>
    obtain ⟨htag, hmore⟩ := List.forall_mem_cons.mp h
    rw [List.flatMap_cons, List.foldl_append, foldl_print htag, ih hmore, List.append_assoc,
      List.singleton_append]

end Runs

/-- **Tags are read back as they are**, whatever the values of their attributes. -/
theorem readTags?_print {tags : List Tag} (h : ∀ tag ∈ tags, tag.IsNamed) :
    readTags? (tags.flatMap print) = some tags := by
  rw [readTags?, foldl_flatMap_print h, List.nil_append]

/-- So no two lists of tags look the same in print. -/
theorem flatMap_print_inj {s t : List Tag} (hs : ∀ tag ∈ s, tag.IsNamed)
    (ht : ∀ tag ∈ t, tag.IsNamed) : s.flatMap print = t.flatMap print ↔ s = t := by
  refine ⟨fun h => ?_, congrArg _⟩
  have hread := congrArg readTags? h
  rw [readTags?_print hs, readTags?_print ht] at hread
  exact Option.some.inj hread

end Tag

end SvgDeck
