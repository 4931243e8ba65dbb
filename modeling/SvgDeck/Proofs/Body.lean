/-
The element of a picture.

`body?` cuts a text at its first start and what follows at its last end.  Nothing of a mark can be
shared by two of them: the bracket that begins a start stands nowhere else in it, and neither does
the bracket that ends an end.  So a cut is where the mark stands first, or last, and a front or a
rest without the mark does not move it:

* `cut?_eq_some_iff`, `cutLast?_eq_some_iff` — where a text is cut;
* `searchBody?_eq` — the body is the leftmost match of `<svg.*</svg>`, with as much inside as can be;
* `extractBody_span` — the body goes from the first start to the last end, and stays the same
  whatever stands around it without a mark.
-/
import SvgDeck.Asset
import SvgDeck.Proofs.FlowId
import Mathlib.Data.List.Infix

namespace SvgDeck

namespace Text

variable {m z : CodePoint} {mark init tail s t u before rest inside : Text}

/-! ### Where a mark stands -/

/-- The mark stands in the text behind its first `i` code points. -/
def StandsAt (mark t : Text) (i : Nat) : Prop := mark <+: t.drop i

structure IsFirstAt (mark t : Text) (i : Nat) : Prop where
  stands : StandsAt mark t i
  first : ∀ j < i, ¬ StandsAt mark t j

structure IsLastAt (mark t : Text) (i : Nat) : Prop where
  stands : StandsAt mark t i
  last : ∀ j, i < j → ¬ StandsAt mark t j

theorem IsFirstAt.unique {i j : Nat} (hi : IsFirstAt mark t i) (hj : IsFirstAt mark t j) :
    i = j := by
  rcases lt_trichotomy i j with h | h | h
  · exact absurd hi.stands (hj.first i h)
  · exact h
  · exact absurd hj.stands (hi.first j h)

theorem IsLastAt.unique {i j : Nat} (hi : IsLastAt mark t i) (hj : IsLastAt mark t j) :
    i = j := by
  rcases lt_trichotomy i j with h | h | h
  · exact absurd hj.stands (hi.last j h)
  · exact h
  · exact absurd hi.stands (hj.last i h)

/-- A text without `m` that begins another one ends before the first `m` there. -/
theorem prefix_of_prefix_append (h : m ∉ tail) (hp : tail <+: s ++ m :: u) : tail <+: s := by
  obtain ⟨r, hr⟩ := hp
  rcases List.append_eq_append_iff.mp hr with ⟨a, hs, _⟩ | ⟨a, htail, hu⟩
  · exact ⟨a, hs.symm⟩
  · cases a with
    | nil => exact ⟨[], by simpa using htail⟩
    | cons c a =>
      obtain ⟨rfl, _⟩ := List.cons.inj hu
      exact absurd (htail ▸ List.mem_append_right s List.mem_cons_self) h

/-- Behind a front without the mark, the mark stands there for the first time. -/
theorem isFirstAt_append (h : m ∉ tail) (hb : ¬ (m :: tail) <:+: before) :
    IsFirstAt (m :: tail) (before ++ (m :: tail ++ rest)) before.length := by
  constructor
  · rw [StandsAt, List.drop_left]
    exact List.prefix_append _ _
  · intro j hj hstands
    rw [StandsAt, List.drop_append_of_le_length hj.le, List.drop_eq_getElem_cons hj,
      List.cons_append, List.cons_prefix_cons] at hstands
    obtain ⟨hm, hp⟩ := hstands
    -- The rest of the mark would have to end before the mark that begins behind the front.
    have hfront : (m :: tail) <+: before.drop j := by
      rw [List.drop_eq_getElem_cons hj]
      exact List.cons_prefix_cons.mpr ⟨hm, prefix_of_prefix_append h hp⟩
    exact hb (hfront.isInfix.trans (List.drop_suffix j before).isInfix)

/-- Before a rest without the mark, the mark stands there for the last time. -/
theorem isLastAt_append (h : z ∉ init) (hr : ¬ (init ++ [z]) <:+: rest) :
    IsLastAt (init ++ [z]) (before ++ (init ++ [z] ++ rest)) before.length := by
  constructor
  · rw [StandsAt, List.drop_left]
    exact List.prefix_append _ _
  · intro j hj hstands
    obtain ⟨k, rfl⟩ := Nat.exists_eq_add_of_lt hj
    rw [StandsAt, Nat.add_assoc, List.drop_length_add_append] at hstands
    rcases Nat.lt_or_ge init.length (k + 1) with hk | hk
    · -- A mark behind this one stands in the rest.
      obtain ⟨n, rfl⟩ := Nat.exists_eq_add_of_le (Nat.le_of_lt_succ hk)
      have hlength : init.length + n + 1 = (init ++ [z]).length + n := by
        rw [List.length_append, List.length_singleton]
        omega
      rw [hlength, List.drop_length_add_append] at hstands
      exact hr (hstands.isInfix.trans (List.drop_suffix n rest).isInfix)
    · -- A mark that begins inside this one would be shorter.
      rw [List.append_assoc, List.drop_append_of_le_length hk] at hstands
      have hp := prefix_of_prefix_append h ((List.prefix_append init [z]).trans hstands)
      have hlength := hp.length_le
      rw [List.length_drop] at hlength
      omega

/-! ### Cutting -/

theorem after?_eq_some_iff : after? s t = some rest ↔ t = s ++ rest := by
  constructor
  · exact fun h => (append_of_after? h).symm
  · rintro rfl
    exact after?_append s rest

theorem after?_eq_none_iff : after? s t = none ↔ ¬ s <+: t := by
  rw [Option.eq_none_iff_forall_ne_some, List.IsPrefix, not_exists]
  exact forall_congr' fun rest => not_congr (after?_eq_some_iff.trans eq_comm)

theorem cut?_eq_none_iff : cut? mark t = none ↔ ¬ mark <:+: t := by
  induction t with
  | nil =>
    rw [cut?, Option.map_eq_none_iff, after?_eq_none_iff, List.prefix_nil, List.infix_nil]
  | cons c t ih =>
    rw [cut?, List.infix_cons_iff, not_or, ← ih]
    cases h : after? mark (c :: t) with
    | none => simp [after?_eq_none_iff.mp h]
    | some rest =>
      have hfront : mark <+: c :: t := ⟨rest, (after?_eq_some_iff.mp h).symm⟩
      simp [hfront]

/-- A text is cut behind the longest front without the mark. -/
theorem cut?_eq_some_iff (h : m ∉ tail) : cut? (m :: tail) t = some (before, rest) ↔
    t = before ++ (m :: tail ++ rest) ∧ ¬ (m :: tail) <:+: before := by
  induction t generalizing before with
  | nil => simp [cut?, after?]
  | cons c t ih =>
    rw [cut?]
    cases hafter : after? (m :: tail) (c :: t) with
    | some r =>
      have ht := after?_eq_some_iff.mp hafter
      simp only [Option.some.injEq, Prod.mk.injEq]
      constructor
      · rintro ⟨rfl, rfl⟩
        exact ⟨ht, by simp⟩
      · rintro ⟨hbefore, hno⟩
        cases before with
        | nil => exact ⟨rfl, List.append_cancel_left (ht.symm.trans hbefore)⟩
        | cons d before =>
          -- The mark at the front would have to end before the one that the text is cut at.
          rw [hbefore] at ht
          have hp : (m :: tail) <+: d :: (before ++ (m :: (tail ++ rest))) := ⟨r, ht.symm⟩
          obtain ⟨hm, hp⟩ := List.cons_prefix_cons.mp hp
          have hfront := List.cons_prefix_cons.mpr ⟨hm, prefix_of_prefix_append h hp⟩
          exact absurd hfront.isInfix hno
    | none =>
      have hno := after?_eq_none_iff.mp hafter
      simp only [Option.map_eq_some_iff, Prod.exists, Prod.mk.injEq]
      constructor
      · rintro ⟨b, r, hcut, rfl, rfl⟩
        obtain ⟨rfl, hb⟩ := ih.mp hcut
        refine ⟨rfl, ?_⟩
        rw [List.infix_cons_iff, not_or]
        refine ⟨fun hp => hno (hp.trans ?_), hb⟩
        exact List.prefix_append (c :: b) _
      · rintro ⟨ht, hb⟩
        cases before with
        | nil => exact absurd ⟨rest, ht.symm⟩ hno
        | cons d before =>
          obtain ⟨rfl, hrest⟩ := List.cons.inj ht
          rw [List.infix_cons_iff, not_or] at hb
          exact ⟨before, rest, ih.mpr ⟨hrest, hb.2⟩, rfl, rfl⟩

theorem cutLast?_eq_none_iff : cutLast? mark t = none ↔ ¬ mark <:+: t := by
  rw [cutLast?, Option.map_eq_none_iff, cut?_eq_none_iff, List.reverse_infix]

/-- Counted from the end, a text is cut before the longest rest without the mark. -/
theorem cutLast?_eq_some_iff (h : z ∉ init) :
    cutLast? (init ++ [z]) t = some (before, rest) ↔
      t = before ++ (init ++ [z] ++ rest) ∧ ¬ (init ++ [z]) <:+: rest := by
  have hz : z ∉ init.reverse := fun hm => h (List.mem_reverse.mp hm)
  have hmark : (init ++ [z]).reverse = z :: init.reverse := by simp
  rw [cutLast?, hmark, Option.map_eq_some_iff]
  constructor
  · rintro ⟨⟨r, b⟩, hcut, hparts⟩
    cases hparts
    obtain ⟨ht, hr⟩ := (cut?_eq_some_iff hz).mp hcut
    refine ⟨?_, ?_⟩
    · rw [← List.reverse_reverse t, ht]
      simp
    · rwa [← List.reverse_infix, List.reverse_reverse, hmark]
  · rintro ⟨rfl, hr⟩
    refine ⟨(rest.reverse, before.reverse), (cut?_eq_some_iff hz).mpr ⟨by simp, ?_⟩, by simp⟩
    rwa [← hmark, List.reverse_infix]

end Text

/-! ### The pattern -/

/-- What matches `.*` followed by the mark at the front of a text, with as much before the mark as
can be. -/
def matchUpTo? (mark : Text) : Text → Option Text
  | [] => (Text.after? mark []).map fun _ => mark
  | c :: t =>
    match matchUpTo? mark t with
    | some rest => some (c :: rest)
    | none => (Text.after? mark (c :: t)).map fun _ => mark

/-- The leftmost match of `<svg.*</svg>`. -/
def searchBody? : Text → Option Text
  | [] => none
  | c :: t =>
    match (Text.after? bodyStart (c :: t)).bind (matchUpTo? bodyEnd) with
    | some rest => some (bodyStart ++ rest)
    | none => searchBody? t

section Pattern

variable {m z : CodePoint} {mark init t body before behind : Text}

theorem matchUpTo?_eq_none_iff : matchUpTo? mark t = none ↔ ¬ mark <:+: t := by
  induction t with
  | nil =>
    rw [matchUpTo?, Option.map_eq_none_iff, Text.after?_eq_none_iff, List.prefix_nil,
      List.infix_nil]
  | cons c t ih =>
    rw [matchUpTo?, List.infix_cons_iff, not_or, ← ih]
    cases matchUpTo? mark t with
    | some rest => simp
    | none => simp [Text.after?_eq_none_iff]

theorem exists_of_matchUpTo? (hmark : mark ≠ []) (h : matchUpTo? mark t = some body) :
    ∃ inside behind, body = inside ++ mark ∧ t = inside ++ (mark ++ behind) ∧
      ¬ mark <:+: behind := by
  induction t generalizing body with
  | nil =>
    obtain ⟨rest, hrest, _⟩ := Option.map_eq_some_iff.mp h
    exact absurd (List.append_eq_nil_iff.mp (Text.after?_eq_some_iff.mp hrest).symm).1 hmark
  | cons c t ih =>
    rw [matchUpTo?] at h
    cases hmatch : matchUpTo? mark t with
    | some rest =>
      rw [hmatch] at h
      cases h
      obtain ⟨inside, behind, rfl, rfl, hb⟩ := ih hmatch
      exact ⟨c :: inside, behind, rfl, rfl, hb⟩
    | none =>
      -- No later place will do, so this one is the last.
      rw [hmatch] at h
      obtain ⟨behind, hbehind, rfl⟩ := Option.map_eq_some_iff.mp h
      have ht := Text.after?_eq_some_iff.mp hbehind
      refine ⟨[], behind, rfl, ht, fun hb => matchUpTo?_eq_none_iff.mp hmatch (hb.trans ?_)⟩
      obtain ⟨d, mark, rfl⟩ := List.exists_cons_of_ne_nil hmark
      exact ⟨mark, [], by simpa using (List.cons.inj ht).2.symm⟩

/-- The match goes up to the last mark. -/
theorem matchUpTo?_eq (h : z ∉ init) : matchUpTo? (init ++ [z]) t =
    (Text.cutLast? (init ++ [z]) t).map fun (inside, _) => inside ++ (init ++ [z]) := by
  cases hmatch : matchUpTo? (init ++ [z]) t with
  | none => rw [Text.cutLast?_eq_none_iff.mpr (matchUpTo?_eq_none_iff.mp hmatch), Option.map_none]
  | some body =>
    obtain ⟨inside, behind, rfl, hparts⟩ := exists_of_matchUpTo? (by simp) hmatch
    rw [(Text.cutLast?_eq_some_iff h).mpr hparts, Option.map_some]

/-! ### The body -/

theorem bodyStart_eq : bodyStart = CodePoint.ofChar '<' :: Text.ofString "svg" := rfl

theorem bodyEnd_eq : bodyEnd = Text.ofString "</svg" ++ [CodePoint.ofChar '>'] := rfl

theorem bracket_not_mem_start : CodePoint.ofChar '<' ∉ Text.ofString "svg" := by decide

theorem bracket_not_mem_end : CodePoint.ofChar '>' ∉ Text.ofString "</svg" := by decide

theorem body?_eq_some_iff : body? t = some body ↔ ∃ before inside behind,
    t = before ++ (bodyStart ++ (inside ++ (bodyEnd ++ behind))) ∧
      body = bodyStart ++ inside ++ bodyEnd ∧ ¬ bodyStart <:+: before ∧ ¬ bodyEnd <:+: behind := by
  simp only [body?, Option.bind_eq_bind, Option.bind_eq_some_iff, Prod.exists, bodyStart_eq,
    bodyEnd_eq, Text.cut?_eq_some_iff bracket_not_mem_start,
    Text.cutLast?_eq_some_iff bracket_not_mem_end]
  constructor
  · rintro ⟨before, _, ⟨rfl, hb⟩, inside, behind, ⟨rfl, hlast⟩, hbody⟩
    exact ⟨before, inside, behind, rfl, (Option.some.inj hbody).symm, hb, hlast⟩
  · rintro ⟨before, inside, behind, rfl, rfl, hb, hlast⟩
    exact ⟨before, _, ⟨rfl, hb⟩, inside, behind, ⟨rfl, hlast⟩, rfl⟩

theorem infix_of_body? (h : body? t = some body) : bodyEnd <:+: t := by
  obtain ⟨before, inside, behind, rfl, _⟩ := body?_eq_some_iff.mp h
  exact ⟨before ++ (bodyStart ++ inside), behind, by simp⟩

/-- No end begins in what a start has behind its bracket. -/
theorem infix_of_infix_start (h : bodyEnd <:+: Text.ofString "svg" ++ t) : bodyEnd <:+: t := by
  have hskip : ∀ c : Char, c ≠ '<' → ∀ u : Text, bodyEnd <:+: CodePoint.ofChar c :: u →
      bodyEnd <:+: u := by
    intro c hc u hu
    refine (List.infix_cons_iff.mp hu).resolve_left fun hp => hc ?_
    exact (CodePoint.ofChar_injective (List.cons_prefix_cons.mp hp).1).symm
  exact hskip 'g' (by decide) _ (hskip 'v' (by decide) _ (hskip 's' (by decide) _ h))

/-- **The leftmost match is the body.** -/
theorem searchBody?_eq (t : Text) : searchBody? t = body? t := by
  induction t with
  | nil => rfl
  | cons c t ih =>
    rw [searchBody?, body?, Text.cut?]
    cases hstart : Text.after? bodyStart (c :: t) with
    | none =>
      rw [Option.bind_none, ih, body?]
      cases Text.cut? bodyStart t <;> rfl
    | some rest =>
      rw [Option.bind_some, bodyEnd_eq, matchUpTo?_eq bracket_not_mem_end, ← bodyEnd_eq]
      cases hend : Text.cutLast? bodyEnd rest with
      | some parts => simp [hend]
      | none =>
        -- No end stands behind this start, so none stands behind a later one.
        have ht : t = Text.ofString "svg" ++ rest := by
          have hstart := Text.after?_eq_some_iff.mp hstart
          rw [bodyStart_eq] at hstart
          exact (List.cons.inj hstart).2
        have hno : body? t = none := by
          refine Option.eq_none_iff_forall_ne_some.mpr fun body hbody => ?_
          refine Text.cutLast?_eq_none_iff.mp hend (infix_of_infix_start ?_)
          rw [← ht]
          exact infix_of_body? hbody
        simp [hend, ih, hno]

end Pattern

/-! ### Spans -/

/-- The first start stands at `i` and the last end at `j`, in this order. -/
structure IsSpan (t : Text) (i j : Nat) : Prop where
  start : Text.IsFirstAt bodyStart t i
  stop : Text.IsLastAt bodyEnd t j
  inOrder : i < j

/-- What a text has from the start at `i` to the end of the end at `j`. -/
def spanned (t : Text) (i j : Nat) : Text := (t.take (j + bodyEnd.length)).drop i

/-- A text is a body with a front that holds no start and a rest that holds no end. -/
structure Embraces (before body behind : Text) : Prop where
  starts : bodyStart <+: body
  ends : bodyEnd <:+ body
  first : ¬ bodyStart <:+: before
  last : ¬ bodyEnd <:+: behind

section Spans

variable {t body before inside behind : Text} {i j : Nat}

theorem isSpan_append (hb : ¬ bodyStart <:+: before) (hl : ¬ bodyEnd <:+: behind) :
    IsSpan (before ++ (bodyStart ++ (inside ++ (bodyEnd ++ behind)))) before.length
      (before ++ (bodyStart ++ inside)).length := by
  constructor
  case start => exact Text.isFirstAt_append bracket_not_mem_start hb
  case stop =>
    have hlast : Text.IsLastAt bodyEnd ((before ++ (bodyStart ++ inside)) ++ (bodyEnd ++ behind))
        (before ++ (bodyStart ++ inside)).length := Text.isLastAt_append bracket_not_mem_end hl
    rwa [List.append_assoc, List.append_assoc] at hlast
  case inOrder =>
    have hpos : 0 < bodyStart.length := by decide
    simp only [List.length_append]
    omega

theorem spanned_append :
    spanned (before ++ (bodyStart ++ (inside ++ (bodyEnd ++ behind)))) before.length
      (before ++ (bodyStart ++ inside)).length = bodyStart ++ inside ++ bodyEnd := by
  have ht : before ++ (bodyStart ++ (inside ++ (bodyEnd ++ behind))) =
      (before ++ (bodyStart ++ inside ++ bodyEnd)) ++ behind := by simp
  have hlength : (before ++ (bodyStart ++ inside)).length + bodyEnd.length =
      (before ++ (bodyStart ++ inside ++ bodyEnd)).length := by
    simp only [List.length_append]
    omega
  rw [spanned, ht, hlength, List.take_left, List.drop_left]

theorem IsSpan.unique {i' j' : Nat} (h : IsSpan t i j) (h' : IsSpan t i' j') : i = i' ∧ j = j' :=
  ⟨h.start.unique h'.start, h.stop.unique h'.stop⟩

/-- A front that ends where a mark stands for the first time holds none. -/
theorem Text.IsFirstAt.not_infix_take {mark : Text} (h : Text.IsFirstAt mark t i)
    (hmark : mark ≠ []) : ¬ mark <:+: t.take i := by
  rintro ⟨a, b, hab⟩
  have hlength := congrArg List.length hab
  have hpos := List.length_pos_iff.mpr hmark
  simp only [List.length_append, List.length_take] at hlength
  have ht : t = a ++ (mark ++ (b ++ t.drop i)) := by
    conv_lhs => rw [← List.take_append_drop i t, ← hab]
    simp
  exact h.first a.length (by omega)
    ⟨b ++ t.drop i, ((congrArg (List.drop a.length) ht).trans List.drop_left).symm⟩

/-- A text with a span has a body. -/
theorem IsSpan.exists_body? (h : IsSpan t i j) : ∃ body, body? t = some body := by
  obtain ⟨r, hr⟩ := h.start.stands
  -- The end stands behind the bracket of the start, so behind the start.
  have hend : bodyEnd <:+: r := by
    have hsuffix : t.drop j <:+ t.drop (i + 1) :=
      List.drop_suffix_drop_left t h.inOrder
    have htail : t.drop (i + 1) = Text.ofString "svg" ++ r := by
      rw [← List.tail_drop, ← hr]
      rfl
    rw [htail] at hsuffix
    exact infix_of_infix_start (h.stop.stands.isInfix.trans hsuffix.isInfix)
  cases hcut : Text.cutLast? bodyEnd r with
  | none => exact absurd hend (Text.cutLast?_eq_none_iff.mp hcut)
  | some parts =>
    obtain ⟨inside, behind⟩ := parts
    obtain ⟨rfl, hl⟩ := (Text.cutLast?_eq_some_iff bracket_not_mem_end).mp hcut
    refine ⟨_, body?_eq_some_iff.mpr ⟨t.take i, inside, behind, ?_, rfl, ?_, hl⟩⟩
    · conv_lhs => rw [← List.take_append_drop i t, ← hr]
      rw [bodyEnd_eq, List.append_assoc]
    · exact h.start.not_infix_take (by decide)

theorem body?_eq_some_iff_isSpan :
    body? t = some body ↔ ∃ i j, IsSpan t i j ∧ body = spanned t i j := by
  have hspan : body? t = some body → ∃ i j, IsSpan t i j ∧ body = spanned t i j := by
    intro h
    obtain ⟨before, inside, behind, rfl, rfl, hb, hl⟩ := body?_eq_some_iff.mp h
    exact ⟨_, _, isSpan_append hb hl, spanned_append.symm⟩
  refine ⟨hspan, ?_⟩
  rintro ⟨i, j, hij, rfl⟩
  obtain ⟨body, hbody⟩ := hij.exists_body?
  obtain ⟨before, inside, behind, rfl, rfl, hb, hl⟩ := body?_eq_some_iff.mp hbody
  obtain ⟨rfl, rfl⟩ := hij.unique (isSpan_append hb hl)
  rw [hbody, spanned_append]

/-- Whatever stands around a body without a mark, it is the same body. -/
theorem body?_append (h : body? t = some body) (hb : ¬ bodyStart <:+: before)
    (hl : ¬ bodyEnd <:+: behind) : body? (before ++ body ++ behind) = some body := by
  obtain ⟨_, inside, _, _, rfl, _⟩ := body?_eq_some_iff.mp h
  exact body?_eq_some_iff.mpr ⟨before, inside, behind, by simp, rfl, hb, hl⟩

theorem extractBody_eq_ok {name : Text} : extractBody t name = .ok body ↔ body? t = some body := by
  rw [extractBody]
  cases body? t with
  | none => simp
  | some body => simp

theorem extractBody_eq_error {name : Text} {f : Failure} :
    extractBody t name = .error f ↔ body? t = none ∧ f = .reported (.missingBody name) := by
  rw [extractBody]
  cases body? t with
  | none => simp [eq_comm]
  | some body => simp

end Spans

/-- **The element of a picture** is the leftmost match of `<svg.*</svg>`, which goes from the first
start to the last end; a text where these do not stand in this order is reported with the name of
its file.  Nothing around the element matters that holds no start before and no end behind it. -/
theorem extractBody_span (t name : Text) :
    (∀ body, extractBody t name = .ok body ↔ searchBody? t = some body) ∧
    (∀ body, extractBody t name = .ok body ↔ ∃ i j, IsSpan t i j ∧ body = spanned t i j) ∧
    (∀ f, extractBody t name = .error f ↔
      (¬ ∃ i j, IsSpan t i j) ∧ f = .reported (.missingBody name)) ∧
    ∀ body, extractBody t name = .ok body →
      (∃ before behind, t = before ++ body ++ behind ∧ Embraces before body behind) ∧
      ∀ before behind name', ¬ bodyStart <:+: before → ¬ bodyEnd <:+: behind →
        extractBody (before ++ body ++ behind) name' = .ok body := by
  refine ⟨fun body => ?_, fun body => ?_, fun f => ?_, fun body h => ⟨?_, ?_⟩⟩
  · rw [extractBody_eq_ok, searchBody?_eq]
  · rw [extractBody_eq_ok, body?_eq_some_iff_isSpan]
  · have hnone : body? t = none ↔ ¬ ∃ i j, IsSpan t i j := by
      constructor
      · rintro hnone ⟨i, j, hij⟩
        obtain ⟨body, hbody⟩ := hij.exists_body?
        rw [hnone] at hbody
        cases hbody
      · intro hno
        refine Option.eq_none_iff_forall_ne_some.mpr fun body hbody => hno ?_
        obtain ⟨i, j, hij, _⟩ := body?_eq_some_iff_isSpan.mp hbody
        exact ⟨i, j, hij⟩
    rw [extractBody_eq_error, hnone]
  · obtain ⟨before, inside, behind, rfl, rfl, hb, hl⟩ :=
      body?_eq_some_iff.mp (extractBody_eq_ok.mp h)
    refine ⟨before, behind, by simp, ⟨?_, List.suffix_append _ _, hb, hl⟩⟩
    exact ⟨inside ++ bodyEnd, by simp⟩
  · intro before behind name' hb hl
    exact extractBody_eq_ok.mpr (body?_append (extractBody_eq_ok.mp h) hb hl)

/-- A drawing with a comment on either side that names the mark of the other. -/
def drawing : Text :=
  "<?xml version=\"1.0\"?>\n<!-- </svg> -->\n<svg>\n<svg></svg>\n</svg>\n<!-- <svg -->"

theorem extractBody_span_drawing :
    extractBody drawing "a.svg" = .ok "<svg>\n<svg></svg>\n</svg>" ∧
    (∃ i j, IsSpan drawing i j ∧ Text.ofString "<svg>\n<svg></svg>\n</svg>" = spanned drawing i j) ∧
    extractBody ("</svg>" ++ "<svg>\n<svg></svg>\n</svg>" ++ "<svg" : Text) "b.svg" =
      .ok "<svg>\n<svg></svg>\n</svg>" := by
  have hbody : extractBody drawing "a.svg" = .ok "<svg>\n<svg></svg>\n</svg>" := by rfl
  obtain ⟨_, hspan, _, haround⟩ := extractBody_span drawing "a.svg"
  exact ⟨hbody, (hspan _).mp hbody, (haround _ hbody).2 _ _ _ (by decide) (by decide)⟩

end SvgDeck
