/-
The JSON reader.

What one step of the reader can do is said once: for texts by one equation for each kind of code
point, for values by `readValue_succ_eq_some`, and for items and members, which differ in what an
element is and in their brackets, by `readInside_eq_some` and `readBehind_eq_some`.  Every step
takes something off the text, so the length of the text is fuel enough:

* `takes` — what is read with some fuel is read with as much fuel as it takes off the text;
* `read?_eq_some` — a text is read if it is read with any fuel.
-/
import SvgDeck.Json.Reader
import SvgDeck.Text.Search
import Mathlib.Data.List.Basic

namespace SvgDeck.Json

/-! ### Texts -/

/-- The code point of four hexadecimal digits, and what follows them. -/
def hexCode? : Text → Option (CodePoint × Text)
  | h₁ :: h₂ :: h₃ :: h₄ :: rest =>
    ((hexValue? [h₁, h₂, h₃, h₄]).bind CodePoint.ofNat?).map (·, rest)
  | _ => none

/-- What an escape by number adds to a text, behind the high surrogate that may stand open, and the
high surrogate that it leaves open. -/
def addCode (high : Option CodePoint) (u : CodePoint) : Text × Option CodePoint :=
  match high with
  | some h =>
    if isLowSurrogate u.val then
      ((CodePoint.ofNat? (0x10000 + (h.val - 0xD800) * 0x400 + (u.val - 0xDC00))).toList, none)
    else if isHighSurrogate u.val then ([h], some u)
    else ([h, u], none)
  | none => if isHighSurrogate u.val then ([], some u) else ([u], none)

section Texts

variable {high : Option CodePoint} {c e : CodePoint} {t rest : Text}

theorem prepend_nil (result : Option (Text × Text)) : prepend [] result = result := by
  cases result <;> rfl

theorem readText_nil : readText high [] = none := by rw [readText]

theorem readText_quote : readText high ('"' :: rest : Text) = some (high.toList, rest) := by
  rw [readText.eq_def]
  simp only [if_pos]

theorem readText_control (h : c.val < 0x20) : readText high (c :: rest) = none := by
  have hquote : c ≠ CodePoint.ofChar '"' := by
    rintro rfl
    exact absurd h (by decide)
  rw [readText.eq_def]
  simp only [if_neg hquote, if_pos h]

theorem readText_plain (hquote : c ≠ CodePoint.ofChar '"') (hcontrol : ¬ c.val < 0x20)
    (hbackslash : c ≠ CodePoint.ofChar '\\') :
    readText high (c :: rest) = prepend (high.toList ++ [c]) (readText none rest) := by
  rw [readText.eq_def]
  simp only [if_neg hquote, if_neg hcontrol, if_neg hbackslash]

/-- A backslash is no quote and no control. -/
theorem readText_backslash : readText high ('\\' :: t : Text) = match t with
    | [] => none
    | e :: rest =>
      if e = CodePoint.ofChar 'u' then
        (hexCode? rest).bind fun r =>
          prepend (addCode high r.1).1 (readText (addCode high r.1).2 r.2)
      else (unescape? e).bind fun x => prepend (high.toList ++ [x]) (readText none rest) := by
  have hquote : CodePoint.ofChar '\\' ≠ CodePoint.ofChar '"' := by decide
  have hcontrol : ¬ (CodePoint.ofChar '\\').val < 0x20 := by decide
  rw [readText.eq_def]
  simp only [if_neg hquote, if_neg hcontrol, if_pos]
  cases t with
  | nil => rfl
  | cons e rest =>
    by_cases he : e = CodePoint.ofChar 'u'
    · simp only [if_pos he]
      rcases rest with _ | ⟨h₁, _ | ⟨h₂, _ | ⟨h₃, _ | ⟨h₄, rest⟩⟩⟩⟩
      · rfl
      · rfl
      · rfl
      · rfl
      · simp only [hexCode?]
        cases (hexValue? [h₁, h₂, h₃, h₄]).bind CodePoint.ofNat? with
        | none => rfl
        | some u =>
          simp only [Option.map_some, Option.bind_some]
          cases high with
          | none =>
            simp only [addCode]
            split
            · exact (prepend_nil _).symm
            · rfl
          | some h =>
            simp only [addCode]
            split
            · dsimp only
            · split <;> rfl
    · simp only [if_neg he]
      cases unescape? e <;> rfl

theorem prepend_eq_some {front s : Text} {result : Option (Text × Text)} :
    prepend front result = some (s, rest) ↔ ∃ s', result = some (s', rest) ∧ front ++ s' = s := by
  simp only [prepend, Option.map_eq_some_iff, Prod.exists, Prod.mk.injEq]
  constructor
  · rintro ⟨s', _, hresult, rfl, rfl⟩
    exact ⟨s', hresult, rfl⟩
  · rintro ⟨s', hresult, rfl⟩
    exact ⟨s', rest, hresult, rfl, rfl⟩

theorem length_of_hexCode? {u : CodePoint} (h : hexCode? t = some (u, rest)) :
    rest.length < t.length := by
  rcases t with _ | ⟨h₁, _ | ⟨h₂, _ | ⟨h₃, _ | ⟨h₄, t⟩⟩⟩⟩
  · cases h
  · cases h
  · cases h
  · cases h
  · obtain ⟨v, _, hv⟩ := Option.map_eq_some_iff.mp h
    cases hv
    simp only [List.length_cons]
    omega

/-- A text ends at a quote or goes on behind what one step takes. -/
theorem readText_cons_eq_some {s : Text} (h : readText high (c :: t) = some (s, rest)) :
    rest = t ∨ ∃ high' t' s', t'.length ≤ t.length ∧ readText high' t' = some (s', rest) := by
  by_cases hquote : c = CodePoint.ofChar '"'
  · rw [hquote, readText_quote] at h
    cases h
    exact Or.inl rfl
  by_cases hcontrol : c.val < 0x20
  · rw [readText_control hcontrol] at h
    cases h
  by_cases hbackslash : c = CodePoint.ofChar '\\'
  · rw [hbackslash, readText_backslash] at h
    cases t with
    | nil => cases h
    | cons e t =>
      simp only at h
      split at h
      · obtain ⟨⟨u, t'⟩, hcode, h⟩ := Option.bind_eq_some_iff.mp h
        obtain ⟨s', h, _⟩ := prepend_eq_some.mp h
        have hlength := length_of_hexCode? hcode
        exact Or.inr ⟨_, t', s', by rw [List.length_cons]; omega, h⟩
      · obtain ⟨x, _, h⟩ := Option.bind_eq_some_iff.mp h
        obtain ⟨s', h, _⟩ := prepend_eq_some.mp h
        exact Or.inr ⟨_, t, s', by simp, h⟩
  · rw [readText_plain hquote hcontrol hbackslash] at h
    obtain ⟨s', h, _⟩ := prepend_eq_some.mp h
    exact Or.inr ⟨_, t, s', Nat.le_refl _, h⟩

theorem length_of_readText {s : Text} (h : readText high t = some (s, rest)) :
    rest.length < t.length := by
  -- By induction on the length: an escape takes several code points at once.
  induction hn : t.length using Nat.strongRecOn generalizing high t s with
  | ind n ih =>
    cases t with
    | nil =>
      rw [readText_nil] at h
      cases h
    | cons c t =>
      rw [List.length_cons] at hn
      rcases readText_cons_eq_some h with rfl | ⟨high', t', s', hle, h⟩
      · omega
      · have hlt := ih t'.length (by omega) h rfl
        omega

end Texts

/-! ### Steps -/

section Steps

variable {n m : Nat} {t rest : Text} {v : Json}

theorem length_skipSpaces_le (t : Text) : (skipSpaces t).length ≤ t.length :=
  (List.dropWhile_suffix _).length_le

theorem length_of_skipSpaces {c : CodePoint} {s : Text} (h : skipSpaces t = c :: s) :
    s.length < t.length := by
  have hle := length_skipSpaces_le t
  rw [h, List.length_cons] at hle
  omega

/-- What stands in brackets: nothing, or what `read` takes from the first code point on. -/
def readInside {α : Type} (close : CodePoint) (read : Text → Option (List α × Text)) (t : Text) :
    Option (List α × Text) :=
  match skipSpaces t with
  | [] => none
  | c :: rest => if c = close then some ([], rest) else read (c :: rest)

/-- What stands from an element on: the end behind it, or a comma and what `read` takes. -/
def readBehind {α : Type} (close : CodePoint) (a : α) (read : Text → Option (List α × Text))
    (t : Text) : Option (List α × Text) :=
  match skipSpaces t with
  | [] => none
  | c :: rest =>
    if c = close then some ([a], rest)
    else if c = ',' then (read rest).map fun r => (a :: r.1, r.2)
    else none

section Brackets

variable {α : Type} {close : CodePoint} {a : α} {as : List α}
  {read : Text → Option (List α × Text)}

theorem readInside_eq_some : readInside close read t = some (as, rest) ↔
    (as = [] ∧ skipSpaces t = close :: rest) ∨
      ∃ c s, skipSpaces t = c :: s ∧ c ≠ close ∧ read (c :: s) = some (as, rest) := by
  rw [readInside]
  cases skipSpaces t with
  | nil => simp
  | cons c s =>
    by_cases hc : c = close
    · simp [hc, eq_comm]
    · simp [hc]

theorem readBehind_eq_some (hclose : close ≠ CodePoint.ofChar ',') :
    readBehind close a read t = some (as, rest) ↔
      (as = [a] ∧ skipSpaces t = close :: rest) ∨
        ∃ s more, skipSpaces t = CodePoint.ofChar ',' :: s ∧ read s = some (more, rest) ∧
          as = a :: more := by
  rw [readBehind]
  cases skipSpaces t with
  | nil => simp
  | cons c s =>
    by_cases hc : c = close
    · simp [hc, hclose, eq_comm]
    · by_cases hcomma : c = CodePoint.ofChar ','
      · simp [hcomma, hclose.symm, @eq_comm _ as]
      · simp [hc, hcomma]

end Brackets

theorem readValue_succ (n : Nat) (t : Text) : readValue (n + 1) t = match skipSpaces t with
    | [] => none
    | c :: s =>
      if c = '"' then (readText none s).map fun r => (.text r.1, r.2)
      else if c = '[' then (readInside ']' (readItems n) s).map fun r => (.array r.1, r.2)
      else if c = '\x7b' then (readInside '\x7d' (readMembers n) s).map fun r => (.object r.1, r.2)
      else readAtom (c :: s) := by
  rw [readValue]
  cases skipSpaces t with
  | nil => rfl
  | cons c s =>
    simp only [readInside]
    -- Whether the list is empty is asked before or after the constructor is put on.
    cases skipSpaces s with
    | nil => rfl
    | cons d s => simp only [apply_ite (Option.map _), Option.map_some]

theorem readItems_succ (n : Nat) (t : Text) : readItems (n + 1) t =
    (readValue n t).bind fun r => readBehind ']' r.1 (readItems n) r.2 := by
  rw [readItems]
  refine Option.bind_congr fun ⟨item, s⟩ _ => ?_
  simp only [readBehind, Option.map_eq_bind]
  rfl

theorem readMembers_succ (n : Nat) (t : Text) : readMembers (n + 1) t =
    (readMembers.readKey t).bind fun k => (readValue n k.2).bind fun r =>
      readBehind '\x7d' (k.1, r.1) (readMembers n) r.2 := by
  rw [readMembers]
  refine Option.bind_congr fun ⟨key, k⟩ _ => Option.bind_congr fun ⟨value, s⟩ _ => ?_
  simp only [readBehind, Option.map_eq_bind]
  rfl

/-- How a value is read with `n` steps left for what is inside it. -/
inductive ValueStep (n : Nat) (t : Text) : Json → Text → Prop
  | text {s content rest : Text} (start : skipSpaces t = CodePoint.ofChar '"' :: s)
    (h : readText none s = some (content, rest)) : ValueStep n t (.text content) rest
  | array {s rest : Text} {items : List Json} (start : skipSpaces t = CodePoint.ofChar '[' :: s)
    (h : readInside ']' (readItems n) s = some (items, rest)) : ValueStep n t (.array items) rest
  | object {s rest : Text} {members : List (Text × Json)}
    (start : skipSpaces t = CodePoint.ofChar '\x7b' :: s)
    (h : readInside '\x7d' (readMembers n) s = some (members, rest)) :
    ValueStep n t (.object members) rest
  | atom {c : CodePoint} {s rest : Text} {v : Json} (start : skipSpaces t = c :: s)
    (quote : c ≠ CodePoint.ofChar '"') (bracket : c ≠ CodePoint.ofChar '[')
    (brace : c ≠ CodePoint.ofChar '\x7b') (h : readAtom (c :: s) = some (v, rest)) :
    ValueStep n t v rest

theorem readValue_succ_eq_some :
    readValue (n + 1) t = some (v, rest) ↔ ValueStep n t v rest := by
  rw [readValue_succ]
  constructor
  · intro h
    split at h
    · cases h
    · next c s hstart =>
      split_ifs at h with hquote hbracket hbrace
      · obtain ⟨⟨content, r⟩, hcontent, hv⟩ := Option.map_eq_some_iff.mp h
        cases hv
        exact .text (hquote ▸ hstart) hcontent
      · obtain ⟨⟨items, r⟩, hitems, hv⟩ := Option.map_eq_some_iff.mp h
        cases hv
        exact .array (hbracket ▸ hstart) hitems
      · obtain ⟨⟨members, r⟩, hmembers, hv⟩ := Option.map_eq_some_iff.mp h
        cases hv
        exact .object (hbrace ▸ hstart) hmembers
      · exact .atom hstart hquote hbracket hbrace h
  · have hbracket : CodePoint.ofChar '[' ≠ CodePoint.ofChar '"' := by decide
    have hbrace : CodePoint.ofChar '\x7b' ≠ CodePoint.ofChar '"' := by decide
    have hbrace' : CodePoint.ofChar '\x7b' ≠ CodePoint.ofChar '[' := by decide
    intro h
    cases h with
    | text start h => simp [start, h]
    | array start h => simp [start, h, hbracket]
    | object start h => simp [start, h, hbrace, hbrace']
    | atom start quote bracket brace h => simp [start, quote, bracket, brace, h]

theorem readItems_succ_eq_some {items : List Json} :
    readItems (n + 1) t = some (items, rest) ↔ ∃ item s, readValue n t = some (item, s) ∧
      readBehind ']' item (readItems n) s = some (items, rest) := by
  rw [readItems_succ]
  simp only [Option.bind_eq_some_iff, Prod.exists]

theorem readMembers_succ_eq_some {members : List (Text × Json)} :
    readMembers (n + 1) t = some (members, rest) ↔ ∃ key k value s,
      readMembers.readKey t = some (key, k) ∧ readValue n k = some (value, s) ∧
        readBehind '\x7d' (key, value) (readMembers n) s = some (members, rest) := by
  rw [readMembers_succ]
  simp only [Option.bind_eq_some_iff, Prod.exists, exists_and_left]

/-! ### Fuel -/

theorem length_of_after? {front : Text} (h : Text.after? front t = some rest) :
    rest.length + front.length = t.length := by
  rw [← Text.append_of_after? h, List.length_append, Nat.add_comm]

theorem length_of_readAtom (h : readAtom t = some (v, rest)) : rest.length < t.length := by
  rw [readAtom] at h
  split at h
  · next r hword =>
    cases h
    obtain ⟨⟨word, value⟩, hmem, hafter⟩ := List.exists_of_findSome?_eq_some hword
    obtain ⟨r, hr, hv⟩ := Option.map_eq_some_iff.mp hafter
    cases hv
    have hlong : ∀ w ∈ words, 0 < w.1.length := by decide
    have hpos : 0 < word.length := hlong _ hmem
    have hlength := length_of_after? hr
    omega
  · simp only at h
    split_ifs at h with hnil
    obtain ⟨j, _, hj⟩ := Option.map_eq_some_iff.mp h
    cases hj
    have hpos := List.length_pos_iff.mpr hnil
    have hlength := congrArg List.length
      (List.takeWhile_append_dropWhile (p := isNumberPart) (l := t))
    rw [List.length_append] at hlength
    omega

theorem length_of_readKey {key : Text} (h : readMembers.readKey t = some (key, rest)) :
    rest.length < t.length := by
  rw [readMembers.readKey] at h
  split at h
  · cases h
  · next c s hstart =>
    split_ifs at h
    obtain ⟨⟨content, r⟩, hcontent, h⟩ := Option.bind_eq_some_iff.mp h
    simp only at h
    split at h
    · cases h
    · next d s' hcolon =>
      split_ifs at h
      cases h
      have hs := length_of_skipSpaces hstart
      have hr := length_of_readText hcontent
      have hd := length_of_skipSpaces hcolon
      omega

/-- What is read with some fuel takes something off the text, and is read with as much fuel as it
takes off. -/
def Takes {α : Type} (read : Nat → Text → Option (α × Text)) (n : Nat) : Prop :=
  ∀ t a rest, read n t = some (a, rest) → rest.length < t.length ∧
    ∀ m, t.length ≤ m + rest.length → read m t = some (a, rest)

/-- A reader that takes something off the text was not out of fuel. -/
theorem takes_succ {α : Type} {read : Nat → Text → Option (α × Text)}
    (h : ∀ t a rest, read (n + 1) t = some (a, rest) → rest.length < t.length ∧
      ∀ m, t.length ≤ m + 1 + rest.length → read (m + 1) t = some (a, rest)) :
    Takes read (n + 1) := by
  intro t a rest hread
  obtain ⟨hlt, hfuel⟩ := h t a rest hread
  refine ⟨hlt, fun m hm => ?_⟩
  cases m with
  | zero => omega
  | succ m => exact hfuel m hm

section Brackets

variable {α : Type} {close : CodePoint} {read : Nat → Text → Option (List α × Text)}

theorem takes_readInside (h : Takes read n) : Takes (fun m => readInside close (read m)) n := by
  intro t as rest hread
  rcases readInside_eq_some.mp hread with hend | ⟨c, s, hnext, hc, hread⟩
  · have hlength := length_of_skipSpaces hend.2
    exact ⟨hlength, fun m _ => readInside_eq_some.mpr (Or.inl hend)⟩
  · obtain ⟨hlt, hfuel⟩ := h _ _ _ hread
    have hlength := length_skipSpaces_le t
    rw [hnext] at hlength
    refine ⟨by omega, fun m hm => readInside_eq_some.mpr (Or.inr ⟨c, s, hnext, hc, ?_⟩)⟩
    exact hfuel m (by omega)

theorem takes_readBehind (hclose : close ≠ CodePoint.ofChar ',') (a : α) (h : Takes read n) :
    Takes (fun m => readBehind close a (read m)) n := by
  intro t as rest hread
  rcases (readBehind_eq_some hclose).mp hread with hend | ⟨s, more, hcomma, hread, has⟩
  · have hlength := length_of_skipSpaces hend.2
    exact ⟨hlength, fun m _ => (readBehind_eq_some hclose).mpr (Or.inl hend)⟩
  · obtain ⟨hlt, hfuel⟩ := h _ _ _ hread
    have hlength := length_of_skipSpaces hcomma
    refine ⟨by omega, fun m hm => (readBehind_eq_some hclose).mpr
      (Or.inr ⟨s, more, hcomma, ?_, has⟩)⟩
    exact hfuel m (by omega)

end Brackets

theorem takes_value (hitems : Takes readItems n) (hmembers : Takes readMembers n) :
    Takes readValue (n + 1) := by
  refine takes_succ fun t v rest h => ?_
  cases readValue_succ_eq_some.mp h with
  | text start h =>
    have hs := length_of_skipSpaces start
    have hr := length_of_readText h
    exact ⟨by omega, fun m _ => readValue_succ_eq_some.mpr (.text start h)⟩
  | array start h =>
    have hs := length_of_skipSpaces start
    obtain ⟨hlt, hfuel⟩ := takes_readInside hitems _ _ _ h
    refine ⟨by omega, fun m hm => readValue_succ_eq_some.mpr (.array start ?_)⟩
    exact hfuel m (by omega)
  | object start h =>
    have hs := length_of_skipSpaces start
    obtain ⟨hlt, hfuel⟩ := takes_readInside hmembers _ _ _ h
    refine ⟨by omega, fun m hm => readValue_succ_eq_some.mpr (.object start ?_)⟩
    exact hfuel m (by omega)
  | @atom c s _ _ start quote bracket brace h =>
    have hs := length_skipSpaces_le t
    have hr := length_of_readAtom h
    rw [start] at hs
    exact ⟨by omega, fun m _ => readValue_succ_eq_some.mpr (.atom start quote bracket brace h)⟩

theorem takes_items (hvalue : Takes readValue n) (hitems : Takes readItems n) :
    Takes readItems (n + 1) := by
  refine takes_succ fun t items rest h => ?_
  obtain ⟨item, s, hread, hbehind⟩ := readItems_succ_eq_some.mp h
  obtain ⟨hlt, hfuel⟩ := hvalue _ _ _ hread
  obtain ⟨hlt', hfuel'⟩ := takes_readBehind (by decide) item hitems _ _ _ hbehind
  refine ⟨by omega, fun m hm => readItems_succ_eq_some.mpr ⟨item, s, ?_, ?_⟩⟩
  · exact hfuel m (by omega)
  · exact hfuel' m (by omega)

theorem takes_members (hvalue : Takes readValue n) (hmembers : Takes readMembers n) :
    Takes readMembers (n + 1) := by
  refine takes_succ fun t members rest h => ?_
  obtain ⟨key, k, value, s, hkey, hread, hbehind⟩ := readMembers_succ_eq_some.mp h
  have hk := length_of_readKey hkey
  obtain ⟨hlt, hfuel⟩ := hvalue _ _ _ hread
  obtain ⟨hlt', hfuel'⟩ := takes_readBehind (by decide) (key, value) hmembers _ _ _ hbehind
  refine ⟨by omega, fun m hm => readMembers_succ_eq_some.mpr ⟨key, k, value, s, hkey, ?_, ?_⟩⟩
  · exact hfuel m (by omega)
  · exact hfuel' m (by omega)

theorem takes (n : Nat) : Takes readValue n ∧ Takes readItems n ∧ Takes readMembers n := by
  induction n with
  | zero =>
    refine ⟨?_, ?_, ?_⟩ <;> intro t a rest h
    · cases (readValue.eq_1 t).symm.trans h
    · cases (readItems.eq_1 t).symm.trans h
    · cases (readMembers.eq_1 t).symm.trans h
  | succ n ih =>
    obtain ⟨hvalue, hitems, hmembers⟩ := ih
    exact ⟨takes_value hitems hmembers, takes_items hvalue hitems, takes_members hvalue hmembers⟩

/-- **The length of a text is fuel enough.** -/
theorem read?_eq_some : read? t = some v ↔
    ∃ n rest, readValue n t = some (v, rest) ∧ skipSpaces rest = [] := by
  rw [read?]
  constructor
  · intro h
    split at h
    · next value rest hvalue =>
      split_ifs at h with hrest
      cases h
      exact ⟨_, rest, hvalue, hrest⟩
    · cases h
  · rintro ⟨n, rest, hvalue, hrest⟩
    obtain ⟨_, hfuel⟩ := (takes n).1 t v rest hvalue
    rw [hfuel (t.length + 1) (by omega)]
    simp [hrest]

end Steps

end SvgDeck.Json
