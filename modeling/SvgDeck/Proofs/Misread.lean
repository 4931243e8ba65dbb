/-
Where a token cannot be read further.

A reader that refuses a token has read a front that some accepted token begins with, and one code
point more is too much (`Refused`).  The one exception is a point where a number should begin: the
digit behind it is what is missed there.  Every reader takes the longest number it finds, so what
stands behind a number cannot be a part of it (`split?_append_cons`); with that, readers that follow
one another and readers of rows refuse where their parts do.

* `rejection_located` — numbers, rows of rectangles and rows of opacities are refused at the place
  that the message names.
-/
import SvgDeck.Proofs.Grammar

namespace SvgDeck.Directive

/-- Some text that is accepted begins with `front`. -/
def Begins (accepts : Text → Prop) (front : Text) : Prop := ∃ rest, accepts (front ++ rest)

/-- Behind the front, an accepted text goes on in another way than with the rest. -/
structure Refused (accepts : Text → Prop) (e : Expectation) (front rest : Text) : Prop where
  viable : Begins accepts front
  dead : ∀ c ∈ rest.head?, ¬ (e = .number ∧ c = CodePoint.ofChar '.') →
    ¬ Begins accepts (front ++ [c])
  point : e = .number → ∀ after, rest = CodePoint.ofChar '.' :: after → ∀ d ∈ after.head?,
    ¬ Begins accepts (front ++ [CodePoint.ofChar '.', d])

/-- The text that starts at `start` is refused where the reader stops. -/
def StopsAt (accepts : Text → Prop) (start : Nat) (t : Text) (stop : Misread) : Prop :=
  ∃ front rest, t = front ++ rest ∧ stop.position = start + front.length ∧
    Refused accepts stop.expectation front rest

section Fronts

variable {accepts accepts' : Text → Prop} {e : Expectation} {front rest before t : Text}

theorem Begins.append (h : ∀ t, accepts' (before ++ t) ↔ accepts t) :
    Begins accepts' (before ++ front) ↔ Begins accepts front := by
  refine exists_congr fun rest => ?_
  rw [List.append_assoc, h]

theorem Refused.append (h : ∀ t, accepts' (before ++ t) ↔ accepts t)
    (hr : Refused accepts e front rest) : Refused accepts' e (before ++ front) rest where
  viable := (Begins.append h).mpr hr.viable
  dead c hc hpoint := by
    rw [List.append_assoc, Begins.append h]
    exact hr.dead c hc hpoint
  point he after hafter d hd := by
    rw [List.append_assoc, Begins.append h]
    exact hr.point he after hafter d hd

/-- What is refused behind a front that was read is refused. -/
theorem StopsAt.append {start : Nat} {stop : Misread} (h : ∀ t, accepts' (before ++ t) ↔ accepts t)
    (hs : StopsAt accepts (start + before.length) t stop) :
    StopsAt accepts' start (before ++ t) stop := by
  obtain ⟨front, rest, rfl, hposition, hr⟩ := hs
  refine ⟨before ++ front, rest, (List.append_assoc _ _ _).symm, ?_, hr.append h⟩
  rw [hposition, List.length_append]
  omega

theorem StopsAt.congr {start : Nat} {stop : Misread} (h : ∀ t, accepts' t ↔ accepts t)
    (hs : StopsAt accepts start t stop) : StopsAt accepts' start t stop := by
  have heq : accepts' = accepts := funext fun t => propext (h t)
  rwa [heq]

end Fronts

/-! ### Numbers and what follows them -/

/-- A number, and behind it one of the given tails. -/
def Leads (tails : Text → Prop) (t : Text) : Prop :=
  ∃ s tail, IsNumber s ∧ t = s ++ tail ∧ tails tail

section Numbers

variable {s t rest u : Text} {n : Numeral} {c : CodePoint} {tails : Text → Prop} {e : Expectation}

/-- A number begins with a digit, or with a point and a digit. -/
theorem IsNumber.exists_front (h : IsNumber s) : ∃ c after, s = c :: after ∧
    (c.isDigit = true ∨ c = CodePoint.ofChar '.' ∧
      ∃ d digits, after = d :: digits ∧ d.isDigit = true) := by
  obtain ⟨_, h⟩ := h
  cases h with
  | whole hs hne =>
    obtain ⟨c, after, rfl⟩ := List.exists_cons_of_ne_nil hne
    exact ⟨c, after, rfl, .inl (hs c List.mem_cons_self)⟩
  | point hs hne _ =>
    obtain ⟨c, after, rfl⟩ := List.exists_cons_of_ne_nil hne
    exact ⟨c, _, rfl, .inl (hs c List.mem_cons_self)⟩
  | fraction hf hne =>
    obtain ⟨d, digits, rfl⟩ := List.exists_cons_of_ne_nil hne
    exact ⟨_, _, rfl, .inr ⟨rfl, d, digits, rfl, hf d List.mem_cons_self⟩⟩

theorem isNumber_zero : IsNumber "0" :=
  ⟨_, .whole (by simp [IsDigits, Text.ofString]; decide) (by decide)⟩

/-- Where no number stands there is no digit, and no point with a digit behind it. -/
theorem of_split?_eq_none (h : Numeral.split? t = none) : (∀ c ∈ t.head?, c.isDigit = false) ∧
    ∀ after, t = CodePoint.ofChar '.' :: after → ∀ d ∈ after.head?, d.isDigit = false := by
  constructor
  · rintro c hc
    obtain ⟨after, rfl⟩ := List.head?_eq_some_iff.mp hc
    by_contra hdigit
    rw [Bool.not_eq_false] at hdigit
    have hne : (c :: after).takeWhile CodePoint.isDigit ≠ [] := by simp [hdigit]
    rw [Numeral.split?] at h
    split at h
    · rw [if_neg hne] at h
      cases h
    · split at h <;> cases h
  · rintro after rfl d hd
    obtain ⟨digits, rfl⟩ := List.head?_eq_some_iff.mp hd
    by_contra hdigit
    rw [Bool.not_eq_false] at hdigit
    have hpoint := isDigit_point
    simp [Numeral.split?, hpoint, Numeral.startsWithDigit, hdigit] at h

/-- The number that is taken off a text does not depend on what follows the code point behind it. -/
theorem split?_append_cons (h : Numeral.split? t = some (n, c :: rest)) (u : Text) :
    Numeral.split? (n.text ++ c :: u) = some (n, c :: u) := by
  have hdigits := isDigits_takeWhile
  have hhead : ∀ (v : Text) (d : CodePoint), d ∈ (v.dropWhile CodePoint.isDigit).head? →
      d.isDigit = false := by
    intro v d hd
    have hnot := List.head?_dropWhile_not CodePoint.isDigit v
    rw [Option.mem_def.mp hd] at hnot
    exact hnot
  rw [Numeral.split?] at h
  split at h
  · split at h <;> cases h
  · next a after hdrop =>
    split at h
    · next hpoint =>
      -- The number has a point, and ends with the digits behind it.
      simp only [Option.some.injEq, Prod.mk.injEq] at h
      obtain ⟨rfl, hafter⟩ := h
      have hne : t.takeWhile CodePoint.isDigit ≠ [] ∨ after.takeWhile CodePoint.isDigit ≠ [] := by
        refine hpoint.2.imp_right fun hstart => ?_
        cases after with
        | nil => cases hstart
        | cons d after =>
          have hd : d.isDigit = true := hstart
          simp [hd]
      refine split?_point (hdigits t) (hdigits after) hne fun d hd => ?_
      obtain rfl : c = d := Option.some.inj hd
      exact hhead after c (by rw [hafter]; rfl)
    · next hpoint =>
      split at h
      · cases h
      · next hne =>
        cases h
        refine split?_whole (hdigits t) hne ?_
        rintro d ⟨⟩
        exact ⟨hhead t c (by rw [hdrop]; rfl), fun hc => hpoint ⟨hc, .inl hne⟩⟩

/-- A number is the one that is taken off a text that it begins, unless it could go on. -/
theorem split?_of_isNumber (hs : IsNumber s) (hu : Stops u) :
    ∃ n, Numeral.split? (s ++ u) = some (n, u) ∧ n.text = s := by
  obtain ⟨_, hs⟩ := hs
  obtain ⟨n, hn, _⟩ := exists_split? hs hu
  exact ⟨n, hn, List.append_cancel_right (Numeral.append_of_split? hn)⟩

/-- Two numbers that cannot go on are the same if what follows makes the same text of them. -/
theorem append_inj_of_isNumber {s' u' : Text} (hs : IsNumber s) (hs' : IsNumber s') (hu : Stops u)
    (hu' : Stops u') (h : s ++ u = s' ++ u') : s = s' ∧ u = u' := by
  obtain ⟨n, hn, rfl⟩ := split?_of_isNumber hs hu
  obtain ⟨n', hn', rfl⟩ := split?_of_isNumber hs' hu'
  rw [h, hn'] at hn
  cases hn
  exact ⟨rfl, rfl⟩

/-- Where no number stands, nothing but a point with a digit behind it, or a digit, could begin
one. -/
theorem refused_of_no_number (h : Numeral.split? t = none) (htails : ∃ tail, tails tail) :
    Refused (Leads tails) .number [] t := by
  obtain ⟨hdigit, hpoint⟩ := of_split?_eq_none h
  obtain ⟨tail, htail⟩ := htails
  constructor
  case viable => exact ⟨"0" ++ tail, "0", tail, isNumber_zero, rfl, htail⟩
  case dead =>
    rintro c hc hne ⟨rest, s, tail, hs, heq, _⟩
    obtain ⟨d, after, rfl, hd⟩ := hs.exists_front
    obtain ⟨rfl, _⟩ := List.cons.inj heq
    rcases hd with hd | ⟨rfl, _⟩
    · rw [hdigit c hc] at hd
      cases hd
    · exact hne ⟨rfl, rfl⟩
  case point =>
    rintro - after rfl d hd ⟨rest, s, tail, hs, heq, _⟩
    obtain ⟨c, after', rfl, hc⟩ := hs.exists_front
    obtain ⟨rfl, hafter⟩ := List.cons.inj heq
    rcases hc with hc | ⟨_, e, digits, rfl, he⟩
    · rw [isDigit_point] at hc
      cases hc
    · obtain ⟨rfl, _⟩ := List.cons.inj hafter
      rw [hpoint after rfl d hd] at he
      cases he

/-- What stands behind a number is refused if nothing that may follow a number begins like it. -/
theorem refused_behind_number (h : Numeral.split? t = some (n, rest)) (he : e ≠ .number)
    (htails : ∃ tail, tails tail) (hstops : ∀ tail, tails tail → Stops tail)
    (hdead : ∀ c ∈ rest.head?, ∀ u, ¬ tails (c :: u)) : Refused (Leads tails) e n.text rest := by
  have hn : IsNumber n.text := ⟨_, writes_of_split? h⟩
  obtain ⟨tail, htail⟩ := htails
  constructor
  case viable => exact ⟨tail, n.text, tail, hn, rfl, htail⟩
  case dead =>
    rintro c hc - ⟨u, s, tail, hs, heq, htail⟩
    obtain ⟨rest, rfl⟩ := List.head?_eq_some_iff.mp hc
    obtain ⟨n', hn', _⟩ := split?_of_isNumber hs (hstops tail htail)
    -- Both numbers are the longest one of the same text.
    rw [← heq, List.append_assoc, List.singleton_append, split?_append_cons h] at hn'
    cases hn'
    exact hdead c rfl u htail
  case point => exact fun hnumber => absurd hnumber he

theorem leads_append (hs : IsNumber s) (hstops : ∀ tail, tails tail → Stops tail) (hu : Stops u) :
    Leads tails (s ++ u) ↔ tails u := by
  constructor
  · rintro ⟨s', tail, hs', heq, htail⟩
    obtain ⟨rfl, rfl⟩ := append_inj_of_isNumber hs hs' hu (hstops tail htail) heq
    exact htail
  · exact fun h => ⟨s, u, hs, rfl, h⟩

theorem leads_nil_iff : Leads (· = []) t ↔ IsNumber t := by
  constructor
  · rintro ⟨s, tail, hs, rfl, rfl⟩
    rwa [List.append_nil]
  · exact fun h => ⟨t, [], h, (List.append_nil t).symm, rfl⟩

/-- A number that is read as a whole is refused where the number ends, or where it should begin. -/
theorem stopsAt_of_readNumber {start : Nat} {stop : Misread}
    (h : readNumber start t = .error stop) : StopsAt IsNumber start t stop := by
  refine StopsAt.congr (fun t => (leads_nil_iff (t := t)).symm) ?_
  rw [readNumber] at h
  split at h
  · next hnone =>
    cases h
    exact ⟨[], t, rfl, rfl, refused_of_no_number hnone ⟨[], rfl⟩⟩
  · cases h
  · next n c rest hn =>
    cases h
    refine ⟨n.text, c :: rest, (Numeral.append_of_split? hn).symm, rfl, ?_⟩
    exact refused_behind_number hn (by simp) ⟨[], rfl⟩ (by rintro _ rfl; exact stops_nil)
      fun _ _ u => List.cons_ne_nil _ u

end Numbers

/-! ### Fields -/

/-- A number with a comma behind it, and then what is accepted there. -/
def IsField (next : Text → Prop) : Text → Prop :=
  Leads fun tail => ∃ rest, tail = CodePoint.ofChar ',' :: rest ∧ next rest

section Fields

variable {next : Text → Prop} {s t : Text}

theorem stops_comma (rest : Text) : Stops (CodePoint.ofChar ',' :: rest) := by
  rintro c ⟨⟩
  decide

theorem isField_append (hs : IsNumber s) :
    IsField next (s ++ [CodePoint.ofChar ','] ++ t) ↔ next t := by
  have hstops : ∀ tail : Text, (∃ rest, tail = CodePoint.ofChar ',' :: rest ∧ next rest) →
      Stops tail := by
    rintro _ ⟨rest, rfl, _⟩
    exact stops_comma rest
  rw [List.append_assoc, List.singleton_append, IsField, leads_append hs hstops (stops_comma t)]
  simp

theorem exists_of_readField {start start' : Nat} {d : Decimal} {rest : Text}
    (h : readField start t = .ok (d, start', rest)) :
    ∃ s, IsNumber s ∧ t = s ++ [CodePoint.ofChar ','] ++ rest ∧
      start' = start + (s ++ [CodePoint.ofChar ',']).length := by
  rw [readField] at h
  split at h
  · cases h
  · cases h
  · next n c after hn =>
    split at h
    · next hc =>
      cases h
      refine ⟨n.text, ⟨_, writes_of_split? hn⟩, ?_, by simp [Nat.add_assoc]⟩
      rw [List.append_assoc, ← hc]
      exact (Numeral.append_of_split? hn).symm
    · cases h

/-- A field is refused where its number or its comma is missed, or where its rest is refused. -/
theorem stopsAt_of_readField {α : Type} {k : Decimal × Nat × Text → Except Misread α} {start : Nat}
    {stop : Misread} (hnext : ∃ u, next u)
    (hk : ∀ {d start rest stop}, k (d, start, rest) = .error stop → StopsAt next start rest stop)
    (h : readField start t >>= k = .error stop) : StopsAt (IsField next) start t stop := by
  have htails : ∃ tail rest, tail = CodePoint.ofChar ',' :: rest ∧ next rest := by
    obtain ⟨u, hu⟩ := hnext
    exact ⟨_, u, rfl, hu⟩
  have hstops : ∀ tail, (∃ rest, tail = CodePoint.ofChar ',' :: rest ∧ next rest) → Stops tail := by
    rintro _ ⟨rest, rfl, _⟩
    exact stops_comma rest
  rcases bind_eq_error.mp h with hfield | ⟨⟨d, start', rest⟩, hfield, hstop⟩
  · rw [readField] at hfield
    split at hfield
    · next hnone =>
      cases hfield
      exact ⟨[], t, rfl, rfl, refused_of_no_number hnone htails⟩
    · next n hn =>
      cases hfield
      refine ⟨n.text, [], (Numeral.append_of_split? hn).symm, rfl, ?_⟩
      exact refused_behind_number hn (by simp) htails hstops (by simp)
    · next n c after hn =>
      split at hfield
      · cases hfield
      · next hc =>
        cases hfield
        refine ⟨n.text, c :: after, (Numeral.append_of_split? hn).symm, rfl, ?_⟩
        refine refused_behind_number hn (by simp) htails hstops ?_
        rintro _ ⟨⟩ u ⟨rest, hcomma, _⟩
        exact hc (List.cons.inj hcomma).1
  · obtain ⟨s, hs, rfl, rfl⟩ := exists_of_readField hfield
    exact StopsAt.append (fun t => isField_append hs) (hk hstop)

theorem isRect_iff : IsRect t ↔ IsField (IsField (IsField IsNumber)) t := by
  constructor
  · rintro ⟨r, rfl, hparts⟩
    simp only [RectText.parts, List.forall_mem_cons] at hparts
    obtain ⟨hx, hy, hw, hh, _⟩ := hparts
    rw [RectText.source_eq]
    exact ⟨r.x, _, hx, rfl, _, rfl, r.y, _, hy, rfl, _, rfl, r.w, _, hw, rfl, r.h, rfl, hh⟩
  · rintro ⟨x, _, hx, rfl, _, rfl, y, _, hy, rfl, _, rfl, w, _, hw, rfl, h, rfl, hh⟩
    exact ⟨⟨x, y, w, h⟩, RectText.source_eq _, by simp [RectText.parts, hx, hy, hw, hh]⟩

theorem exists_isField (h : ∃ u, next u) : ∃ u, IsField next u := by
  obtain ⟨u, hu⟩ := h
  exact ⟨_, _, _, isNumber_zero, rfl, u, rfl, hu⟩

theorem stopsAt_of_readRect {start : Nat} {stop : Misread} (h : Rect.read start t = .error stop) :
    StopsAt IsRect start t stop := by
  have hnumber : ∃ u, IsNumber u := ⟨_, isNumber_zero⟩
  refine StopsAt.congr (fun t => isRect_iff) ?_
  refine stopsAt_of_readField (exists_isField (exists_isField hnumber)) ?_ h
  intro x start rest stop h
  refine stopsAt_of_readField (exists_isField hnumber) ?_ h
  intro y start rest stop h
  refine stopsAt_of_readField hnumber ?_ h
  intro w start rest stop h
  rcases bind_eq_error.mp h with h | ⟨_, _, h⟩
  · exact stopsAt_of_readNumber h
  · cases h

end Fields

/-! ### Rows -/

section Rows

variable {item : Text → Prop} {separates : CodePoint → Bool} {e : Expectation}
  {s t front rest tail : Text} {c : CodePoint}

theorem Row.exists_first (h : Row item separates t) :
    ∃ s tail, t = s ++ tail ∧ item s ∧ ∀ c ∈ tail.head?, separates c = true := by
  cases h with
  | one hs => exact ⟨t, [], (List.append_nil t).symm, hs, by simp⟩
  | @more s rest c hs hc _ => exact ⟨s, c :: rest, rfl, hs, by rintro d ⟨⟩; exact hc⟩

/-- A front without a separator belongs to the first item of a row. -/
theorem Begins.of_row (hfront : ∀ c ∈ front, separates c = false)
    (h : Begins (Row item separates) front) : Begins item front := by
  obtain ⟨rest, hrow⟩ := h
  obtain ⟨s, tail, heq, hs, htail⟩ := hrow.exists_first
  rcases List.append_eq_append_iff.mp heq with ⟨a, rfl, _⟩ | ⟨a, rfl, hrest⟩
  · exact ⟨a, hs⟩
  · cases a with
    | nil => exact ⟨[], by simpa using hs⟩
    | cons c a =>
      have hc := hfront c (by simp)
      rw [htail c (by rw [hrest]; rfl)] at hc
      cases hc

theorem row_append_cons (hitem : ∀ s, item s → ∀ c ∈ s, separates c = false)
    (hs : ∀ c ∈ s, separates c = false) (hc : separates c = true) :
    Row item separates (s ++ c :: t) ↔ item s ∧ Row item separates t := by
  rw [row_iff hitem, List.splitOnP_append_cons_of_forall_mem hs c hc, List.forall_mem_cons,
    ← row_iff hitem]

/-- A row is refused where its first item is, if that is none; the separator behind it is too much
then as well. -/
theorem Refused.row (hitem : ∀ s, item s → ∀ c ∈ s, separates c = false)
    (hpoint : separates (CodePoint.ofChar '.') = false)
    (hs : ∀ c ∈ front ++ rest, separates c = false) (hno : ¬ item (front ++ rest))
    (htail : ∀ c ∈ tail.head?, separates c = true) (h : Refused item e front rest) :
    Refused (Row item separates) e front (rest ++ tail) := by
  have hend : ∀ c, separates c = true → ∀ u, ¬ Row item separates (front ++ rest ++ c :: u) :=
    fun c hc u hrow => hno ((row_append_cons hitem hs hc).mp hrow).1
  constructor
  case viable =>
    obtain ⟨u, hu⟩ := h.viable
    exact ⟨u, .one hu⟩
  case dead =>
    intro c hc hne hbegins
    cases rest with
    | nil =>
      obtain ⟨u, hu⟩ := hbegins
      exact hend c (htail c hc) u (by simpa using hu)
    | cons d rest =>
      obtain rfl : d = c := Option.some.inj hc
      exact h.dead d rfl hne (hbegins.of_row fun x hx => hs x (by simp at hx ⊢; tauto))
  case point =>
    intro he after hafter d hd hbegins
    cases rest with
    | nil =>
      -- A point would have to be a separator.
      have hc := htail (CodePoint.ofChar '.') (by rw [← List.nil_append tail, hafter]; rfl)
      rw [hpoint] at hc
      cases hc
    | cons x rest =>
      obtain ⟨rfl, rfl⟩ := List.cons.inj hafter
      cases rest with
      | nil =>
        obtain ⟨u, hu⟩ := hbegins
        exact hend d (htail d hd) u (by simpa using hu)
      | cons y rest =>
        obtain rfl : y = d := Option.some.inj hd
        exact h.point he _ rfl y rfl (hbegins.of_row fun x hx => hs x (by simp at hx ⊢; tauto))

/-- A row is refused where its first bad piece is. -/
theorem stopsAt_of_readPieces {α : Type} {read : Nat → Text → Except Misread α}
    (hitem : ∀ s, item s → ∀ c ∈ s, separates c = false)
    (hpoint : separates (CodePoint.ofChar '.') = false)
    (hok : ∀ {start s a}, read start s = .ok a → item s)
    (hread : ∀ s, item s → ∃ a, ∀ start, read start s = .ok a)
    (hstop : ∀ {start s stop}, read start s = .error stop → StopsAt item start s stop)
    {start : Nat} {stop : Misread}
    (h : readPieces read start (t.splitOnP separates) = .error stop) :
    StopsAt (Row item separates) start t stop := by
  have hfirst : ∀ {start s tail}, (∀ c ∈ s, separates c = false) →
      (∀ c ∈ tail.head?, separates c = true) → read start s = .error stop →
        StopsAt (Row item separates) start (s ++ tail) stop := by
    intro start s tail hs htail hs_error
    have hno : ¬ item s := by
      intro his
      obtain ⟨a, ha⟩ := hread s his
      rw [ha start] at hs_error
      cases hs_error
    obtain ⟨front, rest, rfl, hposition, hr⟩ := hstop hs_error
    exact ⟨front, rest ++ tail, List.append_assoc _ _ _, hposition,
      hr.row hitem hpoint hs hno htail⟩
  -- The induction is on the length: what follows the first separator is shorter.
  induction hn : t.length using Nat.strong_induction_on generalizing t start with
  | _ n ih =>
    cases hfind : t.find? separates with
    | none =>
      have hs : ∀ c ∈ t, separates c = false := by simpa using List.find?_eq_none.mp hfind
      rw [List.splitOnP_eq_singleton hs, readPieces] at h
      rcases bind_eq_error.mp h with h | ⟨_, _, h⟩
      · simpa using @hfirst _ _ [] hs (by simp) h
      · cases h
    | some c =>
      obtain ⟨hc, s, rest, rfl, hs⟩ := List.find?_eq_some_iff_append.mp hfind
      have hs : ∀ x ∈ s, separates x = false := by simpa using hs
      rw [List.splitOnP_append_cons_of_forall_mem hs c hc, readPieces] at h
      rcases bind_eq_error.mp h with h | ⟨a, ha, h⟩
      · exact hfirst hs (by rintro d ⟨⟩; exact hc) h
      · rcases bind_eq_error.mp h with h | ⟨_, _, h⟩
        · have hrest := ih rest.length (by simp [← hn]; omega) h rfl
          have happend : ∀ u, Row item separates (s ++ [c] ++ u) ↔ Row item separates u := by
            intro u
            rw [List.append_assoc, List.singleton_append, row_append_cons hitem hs hc]
            exact and_iff_right (hok ha)
          have hstops := StopsAt.append happend (by simpa [Nat.add_assoc] using hrest)
          simpa using hstops
        · cases h

end Rows

/-! ### Tokens -/

/-- The report on a refused token names the place where it stops being the front of an accepted one,
and what stands there. -/
structure IsLocated (accepts : Text → Prop) (part token : Text) (fault : SyntaxFault)
    (stop : Misread) : Prop where
  message : fault.message = part ++ " '" ++ token ++ "': " ++ stop.expectation.message ++
    " at position " ++ Text.ofNat stop.position ++ ", found " ++ foundAt token stop.position
  inside : stop.position ≤ token.length
  viable : Begins accepts (token.take stop.position)
  dead : ∀ c, token[stop.position]? = some c →
    ¬ (stop.expectation = .number ∧ c = CodePoint.ofChar '.') →
      ¬ Begins accepts (token.take (stop.position + 1))
  point : stop.expectation = .number → token[stop.position]? = some (CodePoint.ofChar '.') →
    token.length = stop.position + 1 ∨ ¬ Begins accepts (token.take (stop.position + 2))
  foundEnd : foundAt token stop.position = "end of input" ↔ stop.position = token.length
  found : ∀ c, token[stop.position]? = some c → foundAt token stop.position = Text.quoted [c]

section Tokens

variable {accepts : Text → Prop} {part token : Text} {fault : SyntaxFault}

theorem inToken_eq_error {α : Type} {x : Except Misread α} : inToken part token x = .error fault ↔
    ∃ stop, x = .error stop ∧ fault = .misread part token stop := by
  cases x <;> simp [inToken, Except.mapError, eq_comm]

theorem quoted_ne_end (c : CodePoint) : Text.quoted [c] ≠ "end of input" := by
  intro h
  have hquote : ∀ t : Text, Text.quoteFor t ≠ CodePoint.ofChar 'e' := by
    intro t
    rw [Text.quoteFor]
    split <;> decide
  exact hquote _ (List.cons.inj h).1

theorem foundAt_eq_end_iff {n : Nat} (h : n ≤ token.length) :
    foundAt token n = "end of input" ↔ n = token.length := by
  rw [foundAt]
  cases hc : token[n]? with
  | none =>
    have hlength := List.getElem?_eq_none_iff.mp hc
    exact iff_of_true rfl (by omega)
  | some c =>
    have hlength := (List.getElem?_eq_some_iff.mp hc).1
    exact iff_of_false (quoted_ne_end c) (by omega)

theorem StopsAt.isLocated {stop : Misread} (h : StopsAt accepts 0 token stop) :
    IsLocated accepts part token (.misread part token stop) stop := by
  obtain ⟨front, rest, rfl, hposition, hr⟩ := h
  rw [Nat.zero_add] at hposition
  have hbehind : ∀ n, (front ++ rest).take (front.length + n) = front ++ rest.take n :=
    List.take_length_add_append
  have hat : (front ++ rest)[front.length]? = rest.head? := by
    rw [List.getElem?_append_right le_rfl, Nat.sub_self, List.head?_eq_getElem?]
  have hinside : front.length ≤ (front ++ rest).length := by simp
  constructor
  case message => rfl
  case inside => rwa [hposition]
  case viable =>
    rw [hposition, List.take_left]
    exact hr.viable
  case dead =>
    intro c hc hne
    rw [hposition, hat] at hc
    obtain ⟨after, rfl⟩ := List.head?_eq_some_iff.mp hc
    rw [hposition, hbehind]
    exact hr.dead c rfl hne
  case point =>
    intro he hc
    rw [hposition, hat] at hc
    obtain ⟨after, rfl⟩ := List.head?_eq_some_iff.mp hc
    rw [hposition]
    cases after with
    | nil => exact .inl (by simp)
    | cons d after =>
      rw [hbehind]
      exact .inr (hr.point he (d :: after) rfl d rfl)
  case foundEnd =>
    rw [hposition]
    exact foundAt_eq_end_iff hinside
  case found =>
    intro c hc
    rw [foundAt, hc]

theorem isLocated_congr {accepts' : Text → Prop} {stop : Misread} (h : ∀ t, accepts' t ↔ accepts t)
    (hl : IsLocated accepts part token fault stop) : IsLocated accepts' part token fault stop := by
  have heq : accepts' = accepts := funext fun t => propext (h t)
  rwa [heq]

theorem parseNumber_accepts_iff (part t : Text) :
    (∃ d, parseNumber part t = .ok d) ↔ IsNumber t := by
  constructor
  · rintro ⟨d, hd⟩
    exact ⟨_, parseNumber_eq_ok hd⟩
  · rintro ⟨q, hq⟩
    obtain ⟨d, _, hd⟩ := exists_parseNumber hq part
    exact ⟨d, hd⟩

theorem parseList_accepts_iff (t : Text) : (∃ rects, Rect.parseList t = .ok rects) ↔ IsRects t :=
  ⟨fun ⟨_, h⟩ => (Rect.parseList_eq_ok h).1, Rect.exists_parseList⟩

theorem parseOpacities_accepts_iff (t : Text) :
    (∃ opacities, parseOpacities t = .ok opacities) ↔ IsOpacities t := by
  simp only [parseOpacities_eq_ok, exists_and_left, exists_eq, and_true]

theorem stopsAt_of_parseList {stop : Misread}
    (h : readPieces Rect.read 0 (token.splitOn (CodePoint.ofChar ';')) = .error stop) :
    StopsAt IsRects 0 token stop := by
  have hpieces : readPieces Rect.read 0 (token.splitOnP isRectSeparator) = .error stop := h
  refine stopsAt_of_readPieces (fun _ => IsRect.not_separates) (by decide) ?_
    (fun _ => Rect.exists_read) stopsAt_of_readRect hpieces
  intro start s r hr
  obtain ⟨rfl, r', hwrites⟩ := Rect.read_eq_ok hr
  exact hwrites.isRect

theorem stopsAt_of_parseOpacities {stop : Misread}
    (h : readPieces readNumber 0 (token.splitOnP isOpacitySeparator) = .error stop) :
    StopsAt IsOpacities 0 token stop := by
  refine stopsAt_of_readPieces (fun _ => IsNumber.not_separates) (by decide)
    (fun hd => ⟨_, readNumber_eq_ok hd⟩) ?_ stopsAt_of_readNumber h
  rintro s ⟨q, hq⟩
  obtain ⟨d, _, hd⟩ := exists_readNumber hq
  exact ⟨d, hd⟩

end Tokens

/-- **A refused token is refused where the message says**: what stands in front of the position
begins some accepted token, and what goes on to it begins none, or is a point that the digit behind
it is missed at. -/
theorem rejection_located (token : Text) (fault : SyntaxFault) :
    (∀ part, parseNumber part token = .error fault → ∃ stop,
      IsLocated (fun t => ∃ d, parseNumber part t = .ok d) part token fault stop) ∧
    (Rect.parseList token = .error fault → ∃ stop,
      IsLocated (fun t => ∃ rects, Rect.parseList t = .ok rects) "rectangle list" token
        fault stop) ∧
    (parseOpacities token = .error fault → ∃ stop,
      IsLocated (fun t => ∃ opacities, parseOpacities t = .ok opacities) "opacity keyframes" token
        fault stop) := by
  refine ⟨fun part h => ?_, fun h => ?_, fun h => ?_⟩
  · obtain ⟨stop, hstop, rfl⟩ := inToken_eq_error.mp h
    exact ⟨stop,
      isLocated_congr (parseNumber_accepts_iff part) (stopsAt_of_readNumber hstop).isLocated⟩
  · obtain ⟨stop, hstop, rfl⟩ := inToken_eq_error.mp h
    exact ⟨stop, isLocated_congr parseList_accepts_iff (stopsAt_of_parseList hstop).isLocated⟩
  · rcases bind_eq_error.mp h with h | ⟨_, _, h⟩
    · obtain ⟨stop, hstop, rfl⟩ := inToken_eq_error.mp h
      exact ⟨stop,
        isLocated_congr parseOpacities_accepts_iff (stopsAt_of_parseOpacities hstop).isLocated⟩
    · cases h

/-- A time that is no more than a point, a rectangle with a point and no digit behind it, and a row
with two separators between its opacities. -/
theorem rejection_located_tokens :
    (∃ fault stop, parseNumber "end time" "." = .error fault ∧
      IsLocated (fun t => ∃ d, parseNumber "end time" t = .ok d) "end time" "." fault stop) ∧
    (∃ fault stop, Rect.parseList "0,0,.x,1" = .error fault ∧
      IsLocated (fun t => ∃ rects, Rect.parseList t = .ok rects) "rectangle list" "0,0,.x,1" fault
        stop) ∧
    ∃ fault stop, parseOpacities "0;;1" = .error fault ∧
      IsLocated (fun t => ∃ opacities, parseOpacities t = .ok opacities) "opacity keyframes" "0;;1"
        fault stop := by
  have hnumber : parseNumber "end time" "." =
      .error (.misread "end time" "." ⟨.number, 0⟩) := by rfl
  have hrects : Rect.parseList "0,0,.x,1" =
      .error (.misread "rectangle list" "0,0,.x,1" ⟨.number, 4⟩) := by rfl
  have hopacities : parseOpacities "0;;1" =
      .error (.misread "opacity keyframes" "0;;1" ⟨.number, 2⟩) := by rfl
  obtain ⟨stop, hstop⟩ := (rejection_located "." _).1 _ hnumber
  obtain ⟨stop', hstop'⟩ := (rejection_located "0,0,.x,1" _).2.1 hrects
  obtain ⟨stop'', hstop''⟩ := (rejection_located "0;;1" _).2.2 hopacities
  exact ⟨⟨_, stop, hnumber, hstop⟩, ⟨_, stop', hrects, hstop'⟩, _, stop'', hopacities, hstop''⟩

end SvgDeck.Directive
