/-
Texts that swallow what follows.

In a script `<!--` opens a comment that ends at `-->`, and behind the start tag of a script inside
of it no end tag is seen.  Each state of the tokenizer says what it knows of the text so far
(`Describes`), and a step keeps this: what the next code point does to a comment, to the tags in it
and to the name that has begun is said by `inComment_concat`, `exists_scriptTag_concat` and
`begins_concat`.

* `describes_textStep` — one step keeps what the state says;
* `after_plain_eq_doubleEscaped` — behind a text the script is double escaped if a comment is open
  in which a script begins, and only then.
-/
import SvgDeck.Proofs.ScriptData

namespace SvgDeck

open Text

namespace ScriptData

/-! ### Comments and tags -/

def commentStart : Text := "<!--"

def commentEnd : Text := "-->"

/-- A comment is open at the end of the text, and `inside` is what it holds so far.  The end of a
comment may share its dashes with the start. -/
structure InComment (t inside : Text) : Prop where
  behind : commentStart ++ inside <:+ t
  unclosed : ¬ commentEnd <:+: "--" ++ inside

/-- The start tag of a script, up to the code point that ends its name. -/
def IsScriptTag (tag : Text) : Prop :=
  ∃ (name : Text) (c : CodePoint), tag = CodePoint.ofChar '<' :: (name ++ [c]) ∧
    name.toAsciiLower = elementName ∧ c ∈ ofString " />"

/-- At the end of the text a comment is open. -/
def Opens (t : Text) : Prop := ∃ inside, InComment t inside

/-- At the end of the text a comment is open in which a script begins: nothing but the end of the
comment lets an end tag through. -/
def Swallows (t : Text) : Prop :=
  ∃ inside, InComment t inside ∧ ∃ tag, IsScriptTag tag ∧ tag <:+: inside

/-- The text ends in a bracket and letters, which are `name` in small letters. -/
def Begins (name t : Text) : Prop :=
  ∃ letters : Text, letters.toAsciiLower = name ∧ (∀ c ∈ letters, kind c = .letter) ∧
    CodePoint.ofChar '<' :: letters <:+ t

section Ends

variable {c d : CodePoint} {s t inside name name' : Text}

theorem suffix_concat : s ++ [d] <:+ t ++ [c] ↔ d = c ∧ s <:+ t := by
  rw [List.suffix_concat_iff]
  constructor
  · rintro (h | ⟨u, hu, ht⟩)
    · simp at h
    · obtain ⟨rfl, hd⟩ := List.append_inj' hu rfl
      exact ⟨by simpa using hd, ht⟩
  · rintro ⟨rfl, h⟩
    exact .inr ⟨s, rfl, h⟩

/-- None of them is escaped. -/
theorem textKind_eq_iff {k : Kind} {x : Char} (hx : (k, x) ∈ marks) :
    textKind c = k ↔ c = CodePoint.ofChar x := by
  have hmarks : ∀ m ∈ marks, m.1 ≠ .other ∧ Json.escape (CodePoint.ofChar m.2) =
      [CodePoint.ofChar m.2] := by decide
  obtain ⟨hother, hescape⟩ := hmarks _ hx
  rw [textKind]
  constructor
  · intro h
    split at h
    · exact (kind_eq_iff hx).mp h
    · exact absurd h.symm hother
  · rintro rfl
    rw [if_pos hescape, kind_eq_iff hx]

/-- Whether a text ends in a mark is seen at its end. -/
theorem suffix_concat_iff {mark : Text} {k : Kind} {x : Char} (hx : (k, x) ∈ marks)
    (hmark : mark = s ++ [CodePoint.ofChar x]) : mark <:+ t ++ [c] ↔ textKind c = k ∧ s <:+ t := by
  rw [hmark, suffix_concat, textKind_eq_iff hx, eq_comm]

@[simp] theorem bracket_suffix_concat : ofString "<" <:+ t ++ [c] ↔ textKind c = .less :=
  (suffix_concat_iff (x := '<') (s := []) (by decide) rfl).trans (and_iff_left List.nil_suffix)

@[simp] theorem bang_suffix_concat :
    ofString "<!" <:+ t ++ [c] ↔ textKind c = .bang ∧ ofString "<" <:+ t :=
  suffix_concat_iff (x := '!') (by decide) rfl

@[simp] theorem bangDash_suffix_concat :
    ofString "<!-" <:+ t ++ [c] ↔ textKind c = .dash ∧ ofString "<!" <:+ t :=
  suffix_concat_iff (x := '-') (by decide) rfl

@[simp] theorem dash_suffix_concat : ofString "-" <:+ t ++ [c] ↔ textKind c = .dash :=
  (suffix_concat_iff (x := '-') (s := []) (by decide) rfl).trans (and_iff_left List.nil_suffix)

@[simp] theorem dashDash_suffix_concat :
    ofString "--" <:+ t ++ [c] ↔ textKind c = .dash ∧ ofString "-" <:+ t :=
  suffix_concat_iff (x := '-') (by decide) rfl

/-- Two dashes at the end of the text are two dashes at the end of what is in the comment. -/
theorem InComment.dashDash_suffix_iff (h : InComment t inside) :
    ofString "--" <:+ ofString "--" ++ inside ↔ ofString "--" <:+ t := by
  have hbehind : ofString "--" ++ inside <:+ t :=
    List.IsSuffix.trans ⟨ofString "<!", rfl⟩ h.behind
  refine ⟨fun hd => hd.trans hbehind, fun hd => ?_⟩
  exact List.suffix_of_suffix_length_le hd hbehind (by simp)

theorem commentEnd_infix_concat : commentEnd <:+: s ++ [c] ↔
    (textKind c = .greater ∧ ofString "--" <:+ s) ∨ commentEnd <:+: s := by
  have hend : commentEnd <:+ s ++ [c] ↔ textKind c = .greater ∧ ofString "--" <:+ s :=
    suffix_concat_iff (x := '>') (by decide) rfl
  rw [List.infix_concat_iff, hend]

/-- What a code point does to a comment. -/
theorem inComment_concat : InComment (t ++ [c]) inside ↔
    (inside = [] ∧ textKind c = .dash ∧ ofString "<!-" <:+ t) ∨
      ∃ i, inside = i ++ [c] ∧ InComment t i ∧
        ¬ (textKind c = .greater ∧ ofString "--" <:+ t) := by
  rcases List.eq_nil_or_concat' inside with rfl | ⟨i, d, rfl⟩
  · have hstart : commentStart ++ [] <:+ t ++ [c] ↔ textKind c = .dash ∧ ofString "<!-" <:+ t :=
      suffix_concat_iff (x := '-') (by decide) rfl
    constructor
    · exact fun h => .inl ⟨rfl, hstart.mp h.behind⟩
    · rintro (⟨_, h⟩ | ⟨i, hi, _⟩)
      · exact ⟨hstart.mpr h, by decide⟩
      · simp at hi
  · have hstart : commentStart ++ (i ++ [d]) <:+ t ++ [c] ↔ d = c ∧ commentStart ++ i <:+ t := by
      rw [← List.append_assoc, suffix_concat]
    constructor
    · intro h
      obtain ⟨rfl, hbehind⟩ := hstart.mp h.behind
      have hunclosed := h.unclosed
      rw [← List.append_assoc, commentEnd_infix_concat, not_or] at hunclosed
      have hi : InComment t i := ⟨hbehind, hunclosed.2⟩
      exact .inr ⟨i, rfl, hi, by rw [← hi.dashDash_suffix_iff]; exact hunclosed.1⟩
    · rintro (⟨h, _⟩ | ⟨i', hi', h, hopen⟩)
      · simp at h
      · obtain ⟨rfl, hd⟩ := List.append_inj' hi' rfl
        obtain rfl : d = c := by simpa using hd
        refine ⟨hstart.mpr ⟨rfl, h.behind⟩, ?_⟩
        rw [← List.append_assoc, commentEnd_infix_concat, not_or, h.dashDash_suffix_iff]
        exact ⟨hopen, h.unclosed⟩

@[simp] theorem opens_concat : Opens (t ++ [c]) ↔ (textKind c = .dash ∧ ofString "<!-" <:+ t) ∨
    (Opens t ∧ ¬ (textKind c = .greater ∧ ofString "--" <:+ t)) := by
  simp only [Opens, inComment_concat]
  constructor
  · rintro ⟨_, ⟨_, h⟩ | ⟨i, _, h, hopen⟩⟩
    · exact .inl h
    · exact .inr ⟨⟨i, h⟩, hopen⟩
  · rintro (h | ⟨⟨i, h⟩, hopen⟩)
    · exact ⟨[], .inl ⟨rfl, h⟩⟩
    · exact ⟨i ++ [c], .inr ⟨i, rfl, h, hopen⟩⟩

theorem le_of_kind_eq_letter (h : kind c = .letter) : 0x41 ≤ c.val := by
  rw [kind] at h
  split_ifs at h with _ _ _ _ _ hletter
  simp only [CodePoint.isAsciiUpper, CodePoint.isAsciiLower, CodePoint.isBetween, Bool.or_eq_true,
    Bool.and_eq_true, decide_eq_true_eq] at hletter
  omega

/-- No letter is escaped. -/
theorem textKind_eq_letter : textKind c = .letter ↔ kind c = .letter := by
  rw [textKind]
  split
  · rfl
  · next hescape =>
    refine iff_of_false (by decide) fun h => hescape ?_
    have hle := le_of_kind_eq_letter h
    have hne : ∀ x : Char, kind (CodePoint.ofChar x) ≠ .letter → c ≠ CodePoint.ofChar x := by
      rintro x hx rfl
      exact hx h
    rw [Json.escape, if_neg (hne _ (by decide)), if_neg (hne _ (by decide)),
      if_neg (hne _ (by decide)), if_neg (hne _ (by decide)), if_neg (hne _ (by decide)),
      if_neg (by omega), if_neg (by omega), if_neg (by omega)]

/-- What a code point does to a name. -/
@[simp] theorem begins_concat : Begins name (t ++ [c]) ↔ (name = [] ∧ textKind c = .less) ∨
    ∃ n, name = n ++ [c.toAsciiLower] ∧ textKind c = .letter ∧ Begins n t := by
  constructor
  · rintro ⟨letters, rfl, hletters, hsuffix⟩
    rcases List.eq_nil_or_concat' letters with rfl | ⟨ls, d, rfl⟩
    · exact .inl ⟨rfl, bracket_suffix_concat.mp hsuffix⟩
    · rw [← List.cons_append, suffix_concat] at hsuffix
      obtain ⟨rfl, hsuffix⟩ := hsuffix
      obtain ⟨hls, hd⟩ := List.forall_mem_append.mp hletters
      refine .inr ⟨Text.toAsciiLower ls, List.map_append, ?_, ls, rfl, hls, hsuffix⟩
      exact textKind_eq_letter.mpr (hd d List.mem_cons_self)
  · rintro (⟨rfl, hless⟩ | ⟨_, rfl, hletter, ls, rfl, hls, hsuffix⟩)
    · exact ⟨[], rfl, by simp, bracket_suffix_concat.mpr hless⟩
    · refine ⟨ls ++ [c], List.map_append, ?_, ?_⟩
      · exact List.forall_mem_append.mpr
          ⟨hls, List.forall_mem_singleton.mpr (textKind_eq_letter.mp hletter)⟩
      · rw [← List.cons_append, suffix_concat]
        exact ⟨rfl, hsuffix⟩

/-- The name at the end of a text is one. -/
theorem Begins.unique (h : Begins name t) (h' : Begins name' t) : name = name' := by
  induction t using List.reverseRecOn generalizing name name' with
  | nil =>
    obtain ⟨letters, _, _, hsuffix⟩ := h
    simp at hsuffix
  | append_singleton t c ih =>
    rw [begins_concat] at h h'
    rcases h with ⟨rfl, hless⟩ | ⟨n, rfl, hletter, h⟩
    · rcases h' with ⟨rfl, _⟩ | ⟨_, _, hletter, _⟩
      · rfl
      · rw [hless] at hletter
        cases hletter
    · rcases h' with ⟨_, hless⟩ | ⟨n', rfl, _, h'⟩
      · rw [hletter] at hless
        cases hless
      · rw [ih h h']

/-- A name at the end of the text lies in the comment that is open there. -/
theorem InComment.begins_iff (h : InComment t inside) : Begins name inside ↔ Begins name t := by
  constructor
  · rintro ⟨letters, hname, hletters, hsuffix⟩
    exact ⟨letters, hname, hletters, hsuffix.trans ((List.suffix_append _ _).trans h.behind)⟩
  · rintro ⟨letters, hname, hletters, hsuffix⟩
    refine ⟨letters, hname, hletters, ?_⟩
    have hinside : inside <:+ t := (List.suffix_append _ _).trans h.behind
    rcases Nat.lt_or_ge letters.length inside.length with hlength | hlength
    · exact List.suffix_of_suffix_length_le hsuffix hinside hlength
    · -- Otherwise the last dash before the comment would be one of the letters.
      have hdash : CodePoint.ofChar '-' :: inside <:+ t :=
        List.IsSuffix.trans ⟨ofString "<!-", rfl⟩ h.behind
      have hmem := (List.suffix_of_suffix_length_le hdash hsuffix (by simpa using hlength)).subset
        List.mem_cons_self
      rcases List.mem_cons.mp hmem with hdash | hdash
      · exact absurd hdash (by decide)
      · cases hletters _ hdash

theorem kind_eq_letter (h : (c.isAsciiUpper || c.isAsciiLower) = true) : kind c = .letter := by
  have hne : ∀ x : Char, ((CodePoint.ofChar x).isAsciiUpper || (CodePoint.ofChar x).isAsciiLower) =
      false → c ≠ CodePoint.ofChar x := by
    rintro x hx rfl
    rw [hx] at h
    cases h
  rw [kind, if_neg (hne _ (by decide)), if_neg (hne _ (by decide)), if_neg (hne _ (by decide)),
    if_neg (hne _ (by decide)), if_neg (hne _ (by decide)), if_pos h]

theorem letter_of_elementName (h : Text.toAsciiLower name = elementName) (hc : c ∈ name) :
    kind c = .letter := by
  have hlower : c.toAsciiLower.isAsciiLower = true := by
    have hall : ∀ d ∈ elementName, d.isAsciiLower = true := by decide
    exact hall _ (h ▸ List.mem_map_of_mem hc)
  refine kind_eq_letter ?_
  rw [CodePoint.toAsciiLower] at hlower
  split at hlower
  · next hupper => rw [hupper, Bool.true_or]
  · rw [hlower, Bool.or_true]

/-- The kinds that end the name of a tag. -/
def Kind.EndsName (k : Kind) : Prop := k = .blank ∨ k = .slash ∨ k = .greater

theorem eq_blank_of_textKind (h : textKind c = .blank) : c = CodePoint.ofChar ' ' := by
  rw [textKind] at h
  split at h
  · next hescape =>
    rw [kind] at h
    split_ifs at h with _ _ _ _ _ _ hblank
    simp only [Bool.or_eq_true, decide_eq_true_eq] at hblank
    -- All blanks but the space are escaped.
    rcases hblank with ((hval | hval) | hval) | hval
    · obtain rfl : c = CodePoint.ofChar '\t' := CodePoint.ext hval
      cases hescape
    · obtain rfl : c = CodePoint.ofChar '\n' := CodePoint.ext hval
      cases hescape
    · obtain rfl : c = CodePoint.ofChar '\x0c' := CodePoint.ext hval
      cases hescape
    · exact CodePoint.ext hval
  · cases h

theorem endsName_textKind : (textKind c).EndsName ↔ c ∈ ofString " />" := by
  constructor
  · rintro (h | h | h)
    · rw [eq_blank_of_textKind h]
      decide
    · rw [(textKind_eq_iff (x := '/') (by decide)).mp h]
      decide
    · rw [(textKind_eq_iff (x := '>') (by decide)).mp h]
      decide
  · have hends : ∀ d ∈ ofString " />", textKind d = .blank ∨ textKind d = .slash ∨
        textKind d = .greater := by decide
    exact fun h => hends c h

/-- What a code point does to the tags in a text. -/
theorem exists_scriptTag_concat : (∃ tag, IsScriptTag tag ∧ tag <:+: t ++ [c]) ↔
    (∃ tag, IsScriptTag tag ∧ tag <:+: t) ∨ (textKind c).EndsName ∧ Begins elementName t := by
  simp only [List.infix_concat_iff]
  constructor
  · rintro ⟨_, ⟨name, d, rfl, hname, hd⟩, h | h⟩
    · rw [← List.cons_append, suffix_concat] at h
      obtain ⟨rfl, h⟩ := h
      exact .inr ⟨endsName_textKind.mpr hd, name, hname, fun c => letter_of_elementName hname, h⟩
    · exact .inl ⟨_, ⟨name, d, rfl, hname, hd⟩, h⟩
  · rintro (⟨tag, htag, h⟩ | ⟨hc, name, hname, _, h⟩)
    · exact ⟨tag, htag, .inr h⟩
    · refine ⟨_, ⟨name, c, rfl, hname, endsName_textKind.mp hc⟩, .inl ?_⟩
      rw [← List.cons_append, suffix_concat]
      exact ⟨rfl, h⟩

@[simp] theorem swallows_concat : Swallows (t ++ [c]) ↔
    (Swallows t ∨ Opens t ∧ (textKind c).EndsName ∧ Begins elementName t) ∧
      ¬ (textKind c = .greater ∧ ofString "--" <:+ t) := by
  simp only [Swallows, inComment_concat]
  constructor
  · rintro ⟨_, ⟨rfl, _⟩ | ⟨i, rfl, hi, hopen⟩, htag⟩
    · obtain ⟨tag, ⟨name, d, rfl, _⟩, h⟩ := htag
      simp at h
    · refine ⟨?_, hopen⟩
      rcases exists_scriptTag_concat.mp htag with h | ⟨hc, h⟩
      · exact .inl ⟨i, hi, h⟩
      · exact .inr ⟨⟨i, hi⟩, hc, hi.begins_iff.mp h⟩
  · rintro ⟨⟨i, hi, h⟩ | ⟨⟨i, hi⟩, hc, h⟩, hopen⟩
    · exact ⟨i ++ [c], .inr ⟨i, rfl, hi, hopen⟩, exists_scriptTag_concat.mpr (.inl h)⟩
    · exact ⟨i ++ [c], .inr ⟨i, rfl, hi, hopen⟩,
        exists_scriptTag_concat.mpr (.inr ⟨hc, hi.begins_iff.mpr h⟩)⟩

theorem Swallows.opens (h : Swallows t) : Opens t :=
  let ⟨inside, hi, _⟩ := h
  ⟨inside, hi⟩

end Ends

/-! ### What the states say -/

/-- What is known of a text behind which the tokenizer is in a state. -/
def Describes (t : Text) : State → Prop
  | .data => ¬ Opens t ∧ ¬ ofString "<" <:+ t ∧ ¬ ofString "<!" <:+ t ∧ ¬ ofString "<!-" <:+ t
  | .lessThan => ¬ Opens t ∧ ofString "<" <:+ t
  | .escapeStart => ¬ Opens t ∧ ofString "<!" <:+ t
  | .escapeStartDash => ¬ Opens t ∧ ofString "<!-" <:+ t
  | .escaped => Opens t ∧ ¬ Swallows t ∧ ¬ ofString "-" <:+ t ∧ ∀ name, ¬ Begins name t
  | .escapedDash => Opens t ∧ ¬ Swallows t ∧ ofString "-" <:+ t ∧ ¬ ofString "--" <:+ t
  | .escapedDashDash => Opens t ∧ ¬ Swallows t ∧ ofString "--" <:+ t
  | .escapedLessThan => Opens t ∧ ¬ Swallows t ∧ Begins [] t
  | .doubleEscapeStart name => Opens t ∧ ¬ Swallows t ∧ Begins name t ∧ name ≠ []
  | .doubleEscaped => Swallows t ∧ ¬ ofString "-" <:+ t
  | .doubleEscapedDash => Swallows t ∧ ofString "-" <:+ t ∧ ¬ ofString "--" <:+ t
  | .doubleEscapedDashDash => Swallows t ∧ ofString "--" <:+ t
  | .doubleEscapedLessThan => Swallows t ∧ ¬ ofString "-" <:+ t
  | _ => False

section Descriptions

variable {s : State} {c d : CodePoint} {t name : Text}

theorem isOpen_of_describes (h : Describes t s) : s.isOpen = true := by
  cases s <;> first | rfl | exact h.elim

theorem describes_nil : Describes [] .data := by
  refine ⟨?_, by decide, by decide, by decide⟩
  rintro ⟨inside, hbehind, _⟩
  exact absurd (List.suffix_nil.mp hbehind) (by simp [commentStart, ofString])

/-- A text has one end. -/
theorem eq_of_suffix {u v : Text} {a b : CodePoint} (h : u ++ [a] <:+ t) (h' : v ++ [b] <:+ t) :
    a = b := by
  rcases List.eq_nil_or_concat' t with rfl | ⟨t, c, rfl⟩
  · simp at h
  · rw [(suffix_concat.mp h).1, (suffix_concat.mp h').1]

theorem dash_of_bangDash (h : ofString "<!-" <:+ t) : ofString "-" <:+ t :=
  List.IsSuffix.trans ⟨ofString "<!", rfl⟩ h

theorem dash_of_dashDash (h : ofString "--" <:+ t) : ofString "-" <:+ t :=
  List.IsSuffix.trans ⟨ofString "-", rfl⟩ h

theorem not_bang_of_dash (h : ofString "-" <:+ t) : ¬ ofString "<!" <:+ t := fun h' =>
  absurd (eq_of_suffix (u := []) (v := ofString "<") h h') (by decide)

theorem not_bracket_of_dash (h : ofString "-" <:+ t) : ¬ ofString "<" <:+ t := fun h' =>
  absurd (eq_of_suffix (u := []) (v := []) h h') (by decide)

theorem not_bracket_of_bang (h : ofString "<!" <:+ t) : ¬ ofString "<" <:+ t := fun h' =>
  absurd (eq_of_suffix (u := ofString "<") (v := []) h h') (by decide)

/-- A name ends in a letter, or in the bracket before it. -/
theorem Begins.not_dash (h : Begins name t) : ¬ ofString "-" <:+ t := by
  rcases List.eq_nil_or_concat' t with rfl | ⟨t, c, rfl⟩
  · decide
  · rw [dash_suffix_concat]
    rcases begins_concat.mp h with ⟨_, hless⟩ | ⟨_, _, hletter, _⟩
    · simp [hless]
    · simp [hletter]

theorem describes_plain (h : Describes t s) (hs : s.mode = .plain) :
    Describes (t ++ [c]) (safeNext s (textKind c) c.toAsciiLower) := by
  have hbang := @not_bracket_of_bang t
  have hdash := @not_bang_of_dash t
  have hdash' := @not_bracket_of_dash t
  have hbangDash := @dash_of_bangDash t
  have hopens := @Swallows.opens t
  cases s <;> cases hk : textKind c <;>
    simp_all [Describes, safeNext, next, inData, State.isBehindBracket, State.mode, Mode.base]

theorem describes_escaped (h : Describes t s) (hs : s.mode = .escaped) :
    Describes (t ++ [c]) (safeNext s (textKind c) c.toAsciiLower) := by
  have hdashDash := @dash_of_dashDash t
  have hname : ofString "-" <:+ t → ∀ name, ¬ Begins name t := fun h _ h' => h'.not_dash h
  cases s with
  | escapedLessThan =>
    have hdash := h.2.2.not_dash
    have hname : ¬ Begins elementName t := fun h' => by cases h.2.2.unique h'
    cases hk : textKind c <;>
      simp_all [Describes, safeNext, next, inEscaped, State.isBehindBracket, State.mode, Mode.base]
  | doubleEscapeStart name =>
    have hdash := h.2.2.1.not_dash
    have hname : Begins elementName t ↔ name = elementName :=
      ⟨fun h' => h.2.2.1.unique h', fun h' => h' ▸ h.2.2.1⟩
    by_cases he : name = elementName <;> cases hk : textKind c <;>
      simp_all [Describes, safeNext, next, inEscaped, State.isBehindBracket, Kind.EndsName]
  | _ =>
    cases hk : textKind c <;>
      simp_all [Describes, safeNext, next, inEscaped, State.isBehindBracket, State.mode]

theorem describes_doubleEscaped (h : Describes t s) (hs : s.mode = .doubleEscaped) :
    Describes (t ++ [c]) (safeNext s (textKind c) c.toAsciiLower) := by
  have hdashDash := @dash_of_dashDash t
  cases s <;> cases hk : textKind c <;>
    simp_all [Describes, safeNext, next, inDoubleEscaped, State.isBehindBracket, State.mode,
      Mode.base]

/-- **One step**: the state behind a code point says what is known of the text with it. -/
theorem describes_textStep (h : Describes t s) : Describes (t ++ [c]) (textStep s c) := by
  rw [textStep_eq (isOpen_of_describes h)]
  cases hs : s.mode with
  | plain => exact describes_plain h hs
  | escaped => exact describes_escaped h hs
  | doubleEscaped => exact describes_doubleEscaped h hs

theorem describes_foldl (t : Text) : Describes t (t.foldl textStep .data) := by
  induction t using List.reverseRecOn with
  | nil => exact describes_nil
  | append_singleton t c ih =>
    rw [List.foldl_append, List.foldl_cons, List.foldl_nil]
    exact describes_textStep ih

/-- **What is behind a text** that is read as data: it is double escaped if it swallows. -/
theorem after_plain_eq_doubleEscaped : after t .plain = .doubleEscaped ↔ Swallows t := by
  have h : Describes t (t.foldl textStep .data) := describes_foldl t
  rw [after, Mode.base]
  have hopens := @Swallows.opens t
  generalize t.foldl textStep .data = s at h
  cases s <;> simp_all [Describes, State.mode]

end Descriptions

end ScriptData

end SvgDeck
