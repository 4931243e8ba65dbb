/-
The root element of a picture.

The search for the element goes from the first start to the last end, and markup says which element
is the root.  Whatever part of a file is not left to the author keeps its brackets away from the
mark of a tag (`Exposes`), so a mark around the root can only stand in a remark: a comment, or a
literal or an instruction of a doctype.  Such a remark is taken for the element.

* `isExtracted_iff` — the root element is what is extracted exactly if no remark in front of it
  holds a start and none behind it an end; otherwise it is extracted with more around it.
-/
import SvgDeck.Drawing
import SvgDeck.Proofs.Body

namespace SvgDeck

open Text

/-! ### Where a mark can stand -/

/-- A mark that begins as a tag does, and holds nothing that ends a remark. -/
structure IsTagMark (mark : Text) : Prop where
  bracket : mark.head? = some (CodePoint.ofChar '<')
  second : ∃ c ∈ mark.tail.head?, c ∉ ofString "<!?"
  noEnd : ∀ c ∈ mark, c ∉ ofString "-?'\""

theorem isTagMark_bodyStart : IsTagMark bodyStart := ⟨by decide, ⟨'s', by decide⟩, by decide⟩

theorem isTagMark_bodyEnd : IsTagMark bodyEnd := ⟨by decide, ⟨'/', by decide⟩, by decide⟩

/-- Whatever follows `t`, no mark stands in it or reaches out of it but in one of its remarks. -/
def Exposes (mark t : Text) (remarks : List Text) : Prop :=
  ∀ rest, mark <:+: t ++ rest ↔ (∃ said ∈ remarks, mark <:+: said) ∨ mark <:+: rest

section Marks

variable {mark s t said : Text} {c : CodePoint} {more remarks : List Text}

theorem IsTagMark.exists_eq (h : IsTagMark mark) : ∃ c tail,
    mark = CodePoint.ofChar '<' :: c :: tail ∧ c ∉ ofString "<!?" := by
  obtain ⟨tail, rfl⟩ := List.head?_eq_some_iff.mp h.bracket
  obtain ⟨c, hc, hsecond⟩ := h.second
  obtain ⟨rest, rfl⟩ := List.head?_eq_some_iff.mp hc
  exact ⟨c, rest, rfl, hsecond⟩

theorem exposes_nil : Exposes mark [] [] := by simp [Exposes]

theorem Exposes.append (hs : Exposes mark s remarks) (ht : Exposes mark t more) :
    Exposes mark (s ++ t) (remarks ++ more) := by
  intro rest
  rw [List.append_assoc, hs, ht, ← or_assoc]
  simp only [List.mem_append, or_and_right, exists_or]

theorem Exposes.flatMap {α : Type} {text : α → Text} {remarks : α → List Text}
    (h : ∀ a, Exposes mark (text a) (remarks a)) (as : List α) :
    Exposes mark (as.flatMap text) (as.flatMap remarks) := by
  induction as with
  | nil => exact exposes_nil
  | cons a as ih => exact (h a).append ih

theorem Exposes.infix_iff (h : Exposes mark t remarks) (hmark : IsTagMark mark) :
    mark <:+: t ↔ ∃ said ∈ remarks, mark <:+: said := by
  obtain ⟨_, _, rfl, _⟩ := hmark.exists_eq
  have hiff := h []
  rwa [List.append_nil, List.infix_nil, or_iff_left (List.cons_ne_nil _ _)] at hiff

/-- A mark does not begin where no bracket stands. -/
theorem exposes_of_no_bracket (hmark : IsTagMark mark) (h : ∀ c ∈ t, c ≠ CodePoint.ofChar '<') :
    Exposes mark t [] := by
  obtain ⟨_, _, rfl, _⟩ := hmark.exists_eq
  intro rest
  induction t with
  | nil => simp
  | cons c t ih =>
    obtain ⟨hc, ht⟩ := List.forall_mem_cons.mp h
    rw [List.cons_append, List.infix_cons_iff, List.cons_prefix_cons, ih ht]
    simp [Ne.symm hc]

/-- A bracket begins no mark if what follows it begins something else. -/
theorem exposes_opening (hmark : IsTagMark mark) (hc : c ∈ ofString "!?")
    (ht : ∀ x ∈ t, x ≠ CodePoint.ofChar '<') :
    Exposes mark (CodePoint.ofChar '<' :: c :: t) [] := by
  have hrest := exposes_of_no_bracket hmark ht
  obtain ⟨d, tail, rfl, hd⟩ := hmark.exists_eq
  have hne : d ≠ c := by
    rintro rfl
    exact hd (List.mem_cons_of_mem _ hc)
  have hbracket : CodePoint.ofChar '<' ≠ c := by
    rintro rfl
    exact absurd hc (by decide)
  intro rest
  rw [List.cons_append, List.infix_cons_iff, List.cons_prefix_cons, List.cons_append,
    List.cons_prefix_cons, List.infix_cons_iff, List.cons_prefix_cons, hrest rest]
  simp [hne, hbracket]

/-- A remark ends before a mark that begins in it could go on behind it. -/
theorem exposes_remark (hmark : IsTagMark mark) (hc : c ∈ ofString "-?'\"") :
    Exposes mark (said ++ [c]) [said] := by
  have hcmark : c ∉ mark := fun hmem => hmark.noEnd c hmem hc
  obtain ⟨d, tail, rfl, _⟩ := hmark.exists_eq
  have hbracket : c ≠ CodePoint.ofChar '<' := by
    rintro rfl
    exact hcmark List.mem_cons_self
  intro rest
  rw [List.append_assoc, List.singleton_append]
  induction said with
  | nil =>
    rw [List.nil_append, List.infix_cons_iff, List.cons_prefix_cons]
    simp [Ne.symm hbracket]
  | cons a said ih =>
    simp only [List.mem_singleton, exists_eq_left, List.cons_append] at ih ⊢
    rw [List.infix_cons_iff, List.infix_cons_iff, ih, or_assoc]
    refine or_congr_left ?_
    constructor
    · -- A mark that begins the remark would hold the end of the remark if it went on.
      intro hp
      exact prefix_of_prefix_append (s := a :: said) hcmark hp
    · intro hp
      exact hp.trans (List.prefix_append (a :: said) _)

theorem exposes_enclosed {opening closing : Text} (hmark : IsTagMark mark)
    (ho : Exposes mark opening []) (hc : c ∈ ofString "-?'\"")
    (hclosing : ∀ x ∈ closing, x ≠ CodePoint.ofChar '<') :
    Exposes mark (opening ++ said ++ c :: closing) [said] := by
  have hremark : Exposes mark (said ++ [c]) [said] := exposes_remark hmark hc
  have h := (ho.append hremark).append (exposes_of_no_bracket hmark hclosing)
  simpa using h

end Marks

/-! ### Parts of a file -/

namespace Drawing

section Parts

variable {mark t : Text}

theorem ne_bracket_of_isSpace {c : CodePoint} (h : isSpace c = true) :
    c ≠ CodePoint.ofChar '<' := by
  rintro rfl
  exact absurd h (by decide)

theorem Aside.exposes (hmark : IsTagMark mark) (a : Aside) :
    Exposes mark a.text a.remarks := by
  cases a with
  | space c h =>
    refine exposes_of_no_bracket hmark fun x hx => ?_
    rw [List.mem_singleton.mp hx]
    exact ne_bracket_of_isSpace h
  | comment said _ =>
    exact exposes_enclosed hmark (exposes_opening hmark (by decide) (by decide)) (c := '-')
      (by decide) (by decide)

theorem Declaration.exposes (hmark : IsTagMark mark) (d : Declaration) :
    Exposes mark d.text [] := by
  have hattributes : ∀ c ∈ d.attributes, c ≠ CodePoint.ofChar '<' := by
    rintro c hc rfl
    exact d.noBracket _ hc (by decide)
  have hopening : Exposes mark (ofString "<?xml") [] :=
    exposes_opening hmark (by decide) (by decide)
  exact (hopening.append (exposes_of_no_bracket hmark hattributes)).append
    (exposes_of_no_bracket hmark (by decide))

theorem Piece.exposes (hmark : IsTagMark mark) (p : Piece) : Exposes mark p.text p.remarks := by
  cases p with
  | plain c h =>
    refine exposes_of_no_bracket hmark fun x hx => ?_
    rw [List.mem_singleton.mp hx]
    rintro rfl
    exact h (by decide)
  | literal quote hquote said _ =>
    have hne : quote ≠ CodePoint.ofChar '<' := by
      rintro rfl
      exact absurd hquote (by decide)
    have hopening : Exposes mark [quote] [] := exposes_of_no_bracket hmark (by simpa using hne)
    have hend : quote ∈ ofString "-?'\"" := List.mem_cons_of_mem _ (List.mem_cons_of_mem _ hquote)
    exact exposes_enclosed hmark hopening hend (by simp)

theorem Entry.exposes (hmark : IsTagMark mark) (e : Entry) : Exposes mark e.text e.remarks := by
  cases e with
  | aside a => exact a.exposes hmark
  | reference name h =>
    refine exposes_of_no_bracket hmark fun x hx => ?_
    rintro rfl
    rcases List.mem_append.mp hx with hx | hx
    · rcases List.mem_append.mp hx with hx | hx
      · exact absurd hx (by decide)
      · exact h _ hx (by decide)
    · exact absurd hx (by decide)
  | instruction said _ =>
    exact exposes_enclosed hmark (exposes_opening hmark (by decide) (by decide)) (c := '?')
      (by decide) (by decide)
  | declaration pieces =>
    have hopening : Exposes mark (ofString "<!") [] :=
      exposes_opening hmark (by decide) (by simp)
    have h := (hopening.append (.flatMap (Piece.exposes hmark) pieces)).append
      (exposes_of_no_bracket hmark (t := ofString ">") (by decide))
    rwa [List.nil_append, List.append_nil] at h

theorem Doctype.exposes (hmark : IsTagMark mark) (d : Doctype) :
    Exposes mark d.text d.remarks := by
  have hopening : Exposes mark (ofString "<!DOCTYPE") [] :=
    exposes_opening hmark (by decide) (by decide)
  have hentries : Exposes mark d.entriesText ((d.entries.getD []).flatMap Entry.remarks) := by
    rw [entriesText]
    cases d.entries with
    | none => exact exposes_nil
    | some entries =>
      have h := ((exposes_of_no_bracket hmark (t := ofString "[") (by decide)).append
        (.flatMap (Entry.exposes hmark) entries)).append
          (exposes_of_no_bracket hmark (t := ofString "]") (by decide))
      rwa [List.nil_append, List.append_nil] at h
  have hspaces : Exposes mark d.spaces [] :=
    exposes_of_no_bracket hmark fun c hc => ne_bracket_of_isSpace (d.areSpaces c hc)
  have h := (((hopening.append (.flatMap (Piece.exposes hmark) d.pieces)).append hentries).append
    hspaces).append (exposes_of_no_bracket hmark (t := ofString ">") (by decide))
  rwa [List.nil_append, List.append_nil, List.append_nil] at h

theorem Prologue.exposes (hmark : IsTagMark mark) (p : Prologue) :
    Exposes mark p.text p.remarks := by
  have hdeclaration : Exposes mark p.declarationText [] := by
    rw [declarationText]
    cases p.declaration with
    | none => exact exposes_nil
    | some d => exact d.exposes hmark
  have hdoctype : Exposes mark p.doctypeText p.doctypeRemarks := by
    rw [doctypeText, doctypeRemarks]
    cases p.doctype with
    | none => exact exposes_nil
    | some d => exact (d.1.exposes hmark).append (.flatMap (Aside.exposes hmark) d.2)
  have h := (hdeclaration.append (.flatMap (Aside.exposes hmark) p.asides)).append hdoctype
  rwa [List.nil_append] at h

theorem exposes_epilogue (hmark : IsTagMark mark) (d : Drawing) :
    Exposes mark d.epilogueText (d.epilogue.flatMap Aside.remarks) :=
  .flatMap (Aside.exposes hmark) d.epilogue

end Parts

/-! ### The element that is extracted -/

section Extracted

variable {body before behind : Text}

/-- The two ends of an element do not overlap. -/
theorem exists_inside (hs : bodyStart <+: body) (he : bodyEnd <:+ body) :
    ∃ inside, body = bodyStart ++ inside ++ bodyEnd := by
  obtain ⟨rest, rfl⟩ := hs
  have hskip : ∀ c : Char, c ≠ '<' → ∀ u : Text, bodyEnd <:+ CodePoint.ofChar c :: u →
      bodyEnd <:+ u := by
    intro c hc u hu
    refine (List.suffix_cons_iff.mp hu).resolve_left fun heq => hc ?_
    exact (CodePoint.ofChar_injective (List.cons.inj heq).1).symm
  -- The end is not the whole element, as its second character is another one.
  have htail : bodyEnd <:+ ofString "svg" ++ rest := by
    refine (List.suffix_cons_iff.mp he).resolve_left fun heq => ?_
    exact absurd (List.cons.inj (List.cons.inj heq).2).1 (by decide)
  obtain ⟨inside, rfl⟩ :=
    hskip 'g' (by decide) _ (hskip 'v' (by decide) _ (hskip 's' (by decide) _ htail))
  exact ⟨inside, (List.append_assoc _ _ _).symm⟩

theorem body?_of_ends (hs : bodyStart <+: body) (he : bodyEnd <:+ body)
    (hb : ¬ bodyStart <:+: before) (hl : ¬ bodyEnd <:+: behind) :
    body? (before ++ body ++ behind) = some body := by
  obtain ⟨inside, rfl⟩ := exists_inside hs he
  exact body?_eq_some_iff.mpr ⟨before, inside, behind, by simp, rfl, hb, hl⟩

/-- Of what stands in front of an element, what is taken for a part of it. -/
theorem exists_front (t : Text) : ∃ before front, t = before ++ front ∧
    ¬ bodyStart <:+: before ∧ (front = [] ↔ ¬ bodyStart <:+: t) ∧
      ∀ root, bodyStart <+: root → bodyStart <+: front ++ root := by
  cases hcut : cut? bodyStart t with
  | none =>
    have hno := cut?_eq_none_iff.mp hcut
    exact ⟨t, [], by simp, hno, by simpa using hno, fun _ h => h⟩
  | some parts =>
    obtain ⟨before, rest⟩ := parts
    obtain ⟨rfl, hno⟩ := (cut?_eq_some_iff bracket_not_mem_start).mp hcut
    have hin : bodyStart <:+: before ++ (bodyStart ++ rest) := ⟨before, rest, by simp⟩
    refine ⟨before, bodyStart ++ rest, rfl, hno, ?_, fun root _ => ⟨rest ++ root, by simp⟩⟩
    exact iff_of_false (List.cons_ne_nil _ _) (not_not_intro hin)

/-- Of what stands behind an element, what is taken for a part of it. -/
theorem exists_back (t : Text) : ∃ back behind, t = back ++ behind ∧
    ¬ bodyEnd <:+: behind ∧ (back = [] ↔ ¬ bodyEnd <:+: t) ∧
      ∀ root, bodyEnd <:+ root → bodyEnd <:+ root ++ back := by
  cases hcut : cutLast? bodyEnd t with
  | none =>
    have hno := cutLast?_eq_none_iff.mp hcut
    exact ⟨[], t, rfl, hno, by simpa using hno, fun _ h => by simpa using h⟩
  | some parts =>
    obtain ⟨before, behind⟩ := parts
    obtain ⟨rfl, hno⟩ := (cutLast?_eq_some_iff bracket_not_mem_end).mp hcut
    have hin : bodyEnd <:+: before ++ (bodyEnd ++ behind) := ⟨before, behind, by simp⟩
    refine ⟨before ++ bodyEnd, behind, by simp [bodyEnd_eq], hno, ?_, fun root _ => ?_⟩
    · refine iff_of_false (List.append_ne_nil_of_right_ne_nil _ (List.cons_ne_nil _ _)) ?_
      exact not_not_intro hin
    · exact ⟨root ++ before, by simp⟩

/-- What is extracted is the root element, with what in front of it and behind it is taken for a
part of it. -/
theorem exists_extracted (d : Drawing) : ∃ front back,
    front <:+ d.prologue.text ∧ back <+: d.epilogueText ∧
      (front = [] ↔ ¬ bodyStart <:+: d.prologue.text) ∧
      (back = [] ↔ ¬ bodyEnd <:+: d.epilogueText) ∧
        ∀ name, extractBody d.text name = .ok (front ++ d.root ++ back) := by
  obtain ⟨before, front, hprologue, hb, hfront, hstarts⟩ := exists_front d.prologue.text
  obtain ⟨back, behind, hepilogue, hl, hback, hends⟩ := exists_back d.epilogueText
  have hs : bodyStart <+: front ++ d.root ++ back :=
    (hstarts d.root d.starts).trans (List.prefix_append _ _)
  have he : bodyEnd <:+ front ++ d.root ++ back := by
    rw [List.append_assoc]
    exact (hends d.root d.ends).trans (List.suffix_append _ _)
  have htext : d.text = before ++ (front ++ d.root ++ back) ++ behind := by
    rw [text, hprologue, hepilogue]
    simp only [List.append_assoc]
  refine ⟨front, back, ⟨before, hprologue.symm⟩, ⟨behind, hepilogue.symm⟩, hfront, hback, ?_⟩
  intro name
  rw [extractBody_eq_ok, htext]
  exact body?_of_ends hs he hb hl

end Extracted

/-- The root element is what is extracted from the file. -/
def IsExtracted (d : Drawing) : Prop := ∀ name, extractBody d.text name = .ok d.root

/-- No remark around the root element holds a mark that the search could stop at. -/
structure HasPlainRemarks (d : Drawing) : Prop where
  inFront : ∀ said ∈ d.prologue.remarks, ¬ bodyStart <:+: said
  behind : ∀ said ∈ d.epilogue.flatMap Aside.remarks, ¬ bodyEnd <:+: said

theorem hasPlainRemarks_iff (d : Drawing) : d.HasPlainRemarks ↔
    ¬ bodyStart <:+: d.prologue.text ∧ ¬ bodyEnd <:+: d.epilogueText := by
  rw [(d.prologue.exposes isTagMark_bodyStart).infix_iff isTagMark_bodyStart,
    (exposes_epilogue isTagMark_bodyEnd d).infix_iff isTagMark_bodyEnd]
  push Not
  exact ⟨fun h => ⟨h.inFront, h.behind⟩, fun h => ⟨h.1, h.2⟩⟩

/-- **The root element is extracted** exactly if no remark in front of it holds a start and no
remark behind it an end.  In any case it is a part of what is extracted, and what stands around it
there is a rest of the prologue and a front of the epilogue. -/
theorem isExtracted_iff (d : Drawing) :
    (d.IsExtracted ↔ d.HasPlainRemarks) ∧
      ∃ front back, front <:+ d.prologue.text ∧ back <+: d.epilogueText ∧
        ∀ name, extractBody d.text name = .ok (front ++ d.root ++ back) := by
  obtain ⟨front, back, hprologue, hepilogue, hfront, hback, hbody⟩ := d.exists_extracted
  refine ⟨?_, front, back, hprologue, hepilogue, hbody⟩
  rw [hasPlainRemarks_iff, ← hfront, ← hback]
  constructor
  · intro h
    -- Nothing more than the root is left only if nothing stands around it.
    have hlength := congrArg List.length (Except.ok.inj ((hbody []).symm.trans (h [])))
    simp only [List.length_append] at hlength
    exact ⟨List.length_eq_zero_iff.mp (by omega), List.length_eq_zero_iff.mp (by omega)⟩
  · rintro ⟨rfl, rfl⟩ name
    simpa using hbody name

/-- A drawing with a literal in front of its root and a start behind it, which do no harm. -/
def described : Drawing where
  prologue :=
    ⟨some ⟨" version=\"1.0\"", by decide⟩, [.space '\n' (by decide)],
      some (⟨[.plain ' ' (by decide), .plain 'a' (by decide), .plain ' ' (by decide),
        .literal '"' (by decide) "<a>" (by decide)],
        some [.reference "b" (by decide)], [], by simp⟩, [])⟩
  root := "<svg></svg>"
  starts := by decide
  ends := by decide
  epilogue := [.comment " <svg> " (by decide)]

example : described.text =
      "<?xml version=\"1.0\"?>\n<!DOCTYPE a \"<a>\"[%b;]><svg></svg><!-- <svg> -->" ∧
    extractBody described.text "a.svg" = .ok described.root := ⟨rfl, rfl⟩

/-- A drawing whose author says in front of it what it is. -/
def commented : Drawing where
  prologue := ⟨none, [.comment " An <svg element. " (by decide)], none⟩
  root := "<svg></svg>"
  starts := by decide
  ends := by decide
  epilogue := []

/-- The search begins in the comment. -/
theorem commented_not_isExtracted :
    extractBody commented.text "a.svg" = .ok "<svg element. --><svg></svg>" ∧
      ¬ commented.IsExtracted := by
  have hbody : extractBody commented.text "a.svg" = .ok "<svg element. --><svg></svg>" := by rfl
  refine ⟨hbody, fun h => ?_⟩
  have hroot := Except.ok.inj (hbody.symm.trans (h "a.svg"))
  exact absurd hroot (by decide)

end Drawing

end SvgDeck
