/-
What the page's script reads.

`scriptSafe` puts a backslash before each slash that follows an opening angle bracket.  In JSON such
a pair can only stand inside a text, where a backslash before a slash means the slash, so nothing
that is read changes: each reader goes over the changed text in the same steps, and what it leaves
is the change of what it left before.  And no closing tag is left in what is embedded:

* `read?_scriptSafe` — the changed text is read as the text;
* `not_closes_scriptSafe` — the changed text closes nothing;
* `script_embeds` — the script reads back the narration and the mapping, and from the narration to
  its end the page has three closing tags, those of its skeleton.
-/
import SvgDeck.Page.Skeleton
import SvgDeck.Proofs.JsonPrinter

namespace SvgDeck

open Text

/-! ### The change -/

section Change

variable {c : CodePoint} {s t rest : Text}

theorem scriptSafe_cons_of_ne (h : c ≠ CodePoint.ofChar '<') :
    scriptSafe (c :: t) = c :: scriptSafe t := by
  rw [scriptSafe, if_neg fun hc => h hc.1]

/-- The first code point stays. -/
theorem exists_scriptSafe_cons (c : CodePoint) (t : Text) : ∃ u, scriptSafe (c :: t) = c :: u := by
  rw [scriptSafe]
  split
  · exact ⟨_, rfl⟩
  · exact ⟨_, rfl⟩

theorem head?_scriptSafe (t : Text) : (scriptSafe t).head? = t.head? := by
  cases t with
  | nil => rfl
  | cons c t =>
    obtain ⟨u, hu⟩ := exists_scriptSafe_cons c t
    rw [hu, List.head?_cons, List.head?_cons]

@[simp] theorem scriptSafe_eq_nil : scriptSafe t = [] ↔ t = [] := by
  rw [← List.head?_eq_none_iff, head?_scriptSafe, List.head?_eq_none_iff]

/-- A front without an opening bracket stays, and marks the place where it ends. -/
theorem scriptSafe_eq_append_iff (h : CodePoint.ofChar '<' ∉ s) :
    scriptSafe t = s ++ rest ↔ ∃ r, t = s ++ r ∧ rest = scriptSafe r := by
  induction s generalizing t with
  | nil => simp [eq_comm]
  | cons a s ih =>
    rw [List.mem_cons, not_or] at h
    cases t with
    | nil => simp [scriptSafe]
    | cons c t =>
      by_cases hc : c = CodePoint.ofChar '<'
      · obtain ⟨u, hu⟩ := exists_scriptSafe_cons (CodePoint.ofChar '<') t
        simp [hc, hu, h.1]
      · simp [scriptSafe_cons_of_ne hc, ih h.2, and_assoc]

theorem dropWhile_scriptSafe {p : CodePoint → Bool} (hp : p (CodePoint.ofChar '<') = false)
    (t : Text) : (scriptSafe t).dropWhile p = scriptSafe (t.dropWhile p) := by
  induction t with
  | nil => rfl
  | cons c t ih =>
    by_cases hc : c = CodePoint.ofChar '<'
    · obtain ⟨u, hu⟩ := exists_scriptSafe_cons (CodePoint.ofChar '<') t
      rw [hc, hu, List.dropWhile_cons_of_neg (by simp [hp]),
        List.dropWhile_cons_of_neg (by simp [hp]), hu]
    · rw [scriptSafe_cons_of_ne hc]
      by_cases hpc : p c = true
      · rw [List.dropWhile_cons_of_pos hpc, List.dropWhile_cons_of_pos hpc, ih]
      · rw [List.dropWhile_cons_of_neg hpc, List.dropWhile_cons_of_neg hpc,
          scriptSafe_cons_of_ne hc]

theorem takeWhile_scriptSafe {p : CodePoint → Bool} (hp : p (CodePoint.ofChar '<') = false)
    (t : Text) : (scriptSafe t).takeWhile p = t.takeWhile p := by
  induction t with
  | nil => rfl
  | cons c t ih =>
    by_cases hc : c = CodePoint.ofChar '<'
    · obtain ⟨u, hu⟩ := exists_scriptSafe_cons (CodePoint.ofChar '<') t
      rw [hc, hu, List.takeWhile_cons_of_neg (by simp [hp]),
        List.takeWhile_cons_of_neg (by simp [hp])]
    · rw [scriptSafe_cons_of_ne hc, List.takeWhile_cons, List.takeWhile_cons, ih]

theorem after?_scriptSafe (h : CodePoint.ofChar '<' ∉ s) (t : Text) :
    after? s (scriptSafe t) = (after? s t).map scriptSafe := by
  induction s generalizing t with
  | nil => rfl
  | cons a s ih =>
    rw [List.mem_cons, not_or] at h
    cases t with
    | nil => rfl
    | cons c t =>
      by_cases hc : c = CodePoint.ofChar '<'
      · obtain ⟨u, hu⟩ := exists_scriptSafe_cons (CodePoint.ofChar '<') t
        rw [hc, hu, after?, if_neg (Ne.symm h.1), after?, if_neg (Ne.symm h.1)]
        rfl
      · rw [scriptSafe_cons_of_ne hc, after?, after?, ih h.2]
        split <;> rfl

end Change

/-! ### Reading the changed text -/

namespace Json

/-- What is left of a text is changed with it. -/
def changeRest {α : Type} (r : α × Text) : α × Text := (r.1, scriptSafe r.2)

section Texts

variable {high : Option CodePoint} {c : CodePoint} {t : Text}

theorem prepend_changeRest (front : Text) (result : Option (Text × Text)) :
    prepend front (result.map changeRest) = (prepend front result).map changeRest := by
  cases result <;> rfl

theorem hexCode?_eq_some {u : CodePoint} {rest : Text} :
    hexCode? t = some (u, rest) ↔ ∃ ds : Text, ds.length = 4 ∧
      (hexValue? ds).bind CodePoint.ofNat? = some u ∧ t = ds ++ rest := by
  constructor
  · intro h
    rcases t with _ | ⟨h₁, _ | ⟨h₂, _ | ⟨h₃, _ | ⟨h₄, t⟩⟩⟩⟩
    · cases h
    · cases h
    · cases h
    · cases h
    · obtain ⟨v, hv, hr⟩ := Option.map_eq_some_iff.mp h
      cases hr
      exact ⟨[h₁, h₂, h₃, h₄], rfl, hv, rfl⟩
  · rintro ⟨ds, hlength, hvalue, rfl⟩
    obtain ⟨h₁, h₂, h₃, h₄, rfl⟩ := List.length_eq_four.mp hlength
    exact Option.map_eq_some_iff.mpr ⟨u, hvalue, rfl⟩

/-- No digit is a bracket. -/
theorem bracket_not_mem_of_hexValue? {ds : Text} {n : Nat} (h : hexValue? ds = some n) :
    CodePoint.ofChar '<' ∉ ds := by
  obtain ⟨values, hvalues, hn⟩ := Option.map_eq_some_iff.mp h
  clear h hn
  induction ds generalizing values with
  | nil => exact List.not_mem_nil
  | cons d ds ih =>
    rw [List.mapM_cons] at hvalues
    obtain ⟨v, hv, hrest⟩ := Option.bind_eq_some_iff.mp hvalues
    obtain ⟨vs, hvs, _⟩ := Option.bind_eq_some_iff.mp hrest
    have hd : CodePoint.ofChar '<' ≠ d := by
      rintro rfl
      cases hv
    exact List.not_mem_cons_of_ne_of_not_mem hd (ih vs hvs)

/-- The digits of an escape are not changed. -/
theorem hexCode?_scriptSafe (t : Text) : hexCode? (scriptSafe t) = (hexCode? t).map changeRest := by
  refine Option.ext fun r => ?_
  obtain ⟨u, rest⟩ := r
  simp only [Option.map_eq_some_iff, Prod.exists, hexCode?_eq_some, changeRest, Prod.mk.injEq]
  constructor
  · rintro ⟨ds, hlength, hvalue, ht⟩
    obtain ⟨n, hn, _⟩ := Option.bind_eq_some_iff.mp hvalue
    obtain ⟨r, hr, hrest⟩ := (scriptSafe_eq_append_iff (bracket_not_mem_of_hexValue? hn)).mp ht
    exact ⟨u, r, ⟨ds, hlength, hvalue, hr⟩, rfl, hrest.symm⟩
  · rintro ⟨_, r, ⟨ds, hlength, hvalue, hr⟩, rfl, hrest⟩
    obtain ⟨n, hn, _⟩ := Option.bind_eq_some_iff.mp hvalue
    exact ⟨ds, hlength, hvalue,
      (scriptSafe_eq_append_iff (bracket_not_mem_of_hexValue? hn)).mpr ⟨r, hr, hrest.symm⟩⟩

/-- A bracket is read as it stands, with the slash that may follow. -/
theorem readText_bracket (high : Option CodePoint) (t : Text) :
    readText high (CodePoint.ofChar '<' :: t) =
      prepend (high.toList ++ [CodePoint.ofChar '<']) (readText none t) :=
  readText_plain (by decide) (by decide) (by decide)

theorem readText_slash (t : Text) : readText none (CodePoint.ofChar '/' :: t) =
    readText none (CodePoint.ofChar '\\' :: CodePoint.ofChar '/' :: t) := by
  rw [readText_plain (by decide) (by decide) (by decide), readText_backslash]
  rfl

/-- A backslash that was put in front of a slash has no part in what is read. -/
theorem readText_tail_scriptSafe (t : Text) :
    readText none (scriptSafe (CodePoint.ofChar '<' :: t)).tail = readText none (scriptSafe t) := by
  rw [scriptSafe]
  split
  · next h =>
    rcases t with _ | ⟨d, t⟩
    · cases h.2
    · obtain rfl : d = CodePoint.ofChar '/' := by simpa using h.2
      rw [List.tail_cons, scriptSafe_cons_of_ne (by decide), readText_slash]
  · rfl

/-- An escape is read as before if what follows it is. -/
theorem readText_backslash_scriptSafe
    (ih : ∀ s : Text, s.length < t.length →
      ∀ high, readText high (scriptSafe s) = (readText high s).map changeRest) :
    readText high (CodePoint.ofChar '\\' :: scriptSafe t) =
      (readText high (CodePoint.ofChar '\\' :: t)).map changeRest := by
  rw [readText_backslash, readText_backslash]
  cases t with
  | nil => rfl
  | cons e t =>
    have hlt : t.length < (e :: t).length := Nat.lt_succ_self _
    by_cases he : e = CodePoint.ofChar '<'
    · -- No escape is a bracket: both readers stop.
      obtain ⟨u, hu⟩ := exists_scriptSafe_cons (CodePoint.ofChar '<') t
      rw [he, hu]
      rfl
    rw [scriptSafe_cons_of_ne he]
    simp only
    split
    · rw [hexCode?_scriptSafe]
      cases hcode : hexCode? t with
      | none => rfl
      | some r =>
        have hlength : r.2.length < t.length := length_of_hexCode? hcode
        simp only [Option.map_some, Option.bind_some, changeRest]
        rw [ih r.2 (hlength.trans hlt), prepend_changeRest]
    · cases unescape? e with
      | none => rfl
      | some x =>
        simp only [Option.bind_some]
        rw [ih t hlt, prepend_changeRest]

/-- **A text is read as before.** -/
theorem readText_scriptSafe (high : Option CodePoint) (t : Text) :
    readText high (scriptSafe t) = (readText high t).map changeRest := by
  -- By induction on the length: an escape takes several code points at once.
  induction hn : t.length using Nat.strongRecOn generalizing high t with
  | ind n ih =>
    have ihs : ∀ s : Text, s.length < n →
        ∀ high, readText high (scriptSafe s) = (readText high s).map changeRest :=
      fun s hs high => ih s.length hs high s rfl
    cases t with
    | nil =>
      rw [scriptSafe, readText_nil]
      rfl
    | cons c t =>
      rw [List.length_cons] at hn
      have iht := ihs t (by omega)
      by_cases hbracket : c = CodePoint.ofChar '<'
      · obtain ⟨u, hu⟩ := exists_scriptSafe_cons (CodePoint.ofChar '<') t
        have htail := readText_tail_scriptSafe t
        rw [hu, List.tail_cons] at htail
        rw [hbracket, hu, readText_bracket, readText_bracket, htail, iht, prepend_changeRest]
      rw [scriptSafe_cons_of_ne hbracket]
      by_cases hquote : c = CodePoint.ofChar '"'
      · rw [hquote, readText_quote, readText_quote]
        rfl
      by_cases hcontrol : c.val < 0x20
      · rw [readText_control hcontrol, readText_control hcontrol]
        rfl
      by_cases hbackslash : c = CodePoint.ofChar '\\'
      · rw [hbackslash]
        exact readText_backslash_scriptSafe fun s hs => ihs s (by omega)
      · rw [readText_plain hquote hcontrol hbackslash,
          readText_plain hquote hcontrol hbackslash, iht, prepend_changeRest]

end Texts

section Values

variable {t : Text}

theorem skipSpaces_scriptSafe (t : Text) : skipSpaces (scriptSafe t) = scriptSafe (skipSpaces t) :=
  dropWhile_scriptSafe (by decide) t

/-- The first of some words that a text begins with. -/
theorem findSome?_scriptSafe {ws : List (Text × Json)} (h : ∀ w ∈ ws, CodePoint.ofChar '<' ∉ w.1)
    (t : Text) : (ws.findSome? fun (word, value) => (after? word (scriptSafe t)).map (value, ·)) =
      (ws.findSome? fun (word, value) => (after? word t).map (value, ·)).map changeRest := by
  induction ws with
  | nil => rfl
  | cons w ws ih =>
    obtain ⟨word, value⟩ := w
    obtain ⟨hw, hws⟩ := List.forall_mem_cons.mp h
    simp only [List.findSome?_cons]
    rw [after?_scriptSafe hw, ih hws]
    cases after? word t <;> rfl

theorem readAtom_scriptSafe (t : Text) : readAtom (scriptSafe t) = (readAtom t).map changeRest := by
  rw [readAtom, readAtom, findSome?_scriptSafe (by decide), takeWhile_scriptSafe (by decide),
    dropWhile_scriptSafe (by decide)]
  cases words.findSome? fun (word, value) => (after? word t).map (value, ·) with
  | some r => rfl
  | none =>
    simp only [Option.map_none]
    split
    · rfl
    · cases number? (t.takeWhile isNumberPart) <;> rfl

/-- Where a reader looks for one code point, it sees the same. -/
theorem skipSpaces_scriptSafe_cons {c : CodePoint} {s : Text} (h : skipSpaces t = c :: s) :
    (∃ u, skipSpaces (scriptSafe t) = c :: u ∧ scriptSafe (c :: s) = c :: u) ∧
      (c ≠ CodePoint.ofChar '<' → skipSpaces (scriptSafe t) = c :: scriptSafe s) := by
  rw [skipSpaces_scriptSafe, h]
  obtain ⟨u, hu⟩ := exists_scriptSafe_cons c s
  exact ⟨⟨u, hu, hu⟩, fun hc => scriptSafe_cons_of_ne hc⟩

theorem readKey_scriptSafe (t : Text) :
    readMembers.readKey (scriptSafe t) = (readMembers.readKey t).map changeRest := by
  rw [readMembers.readKey, readMembers.readKey]
  cases h : skipSpaces t with
  | nil =>
    rw [skipSpaces_scriptSafe, h]
    rfl
  | cons c s =>
    obtain ⟨⟨u, hu, _⟩, hnext⟩ := skipSpaces_scriptSafe_cons h
    by_cases hquote : c = CodePoint.ofChar '"'
    · rw [hnext (by rw [hquote]; decide)]
      simp only [if_pos hquote, readText_scriptSafe]
      cases readText none s with
      | none => rfl
      | some r =>
        simp only [Option.map_some, changeRest, Option.bind_eq_bind, Option.bind_some]
        cases h : skipSpaces r.2 with
        | nil =>
          rw [skipSpaces_scriptSafe, h]
          rfl
        | cons d s =>
          obtain ⟨⟨u, hu, _⟩, hnext⟩ := skipSpaces_scriptSafe_cons h
          by_cases hcolon : d = CodePoint.ofChar ':'
          · rw [hnext (by rw [hcolon]; decide)]
            simp only [if_pos hcolon]
            rfl
          · rw [hu]
            simp only [if_neg hcolon]
            rfl
    · rw [hu]
      simp only [if_neg hquote]
      rfl

/-- A reader goes over the changed text in the same steps. -/
def Follows {α : Type} (read : Text → Option (α × Text)) : Prop :=
  ∀ t, read (scriptSafe t) = (read t).map changeRest

theorem map_changeRest {α β : Type} (f : α → β) (r : Option (α × Text)) :
    ((r.map changeRest).map fun r => (f r.1, r.2)) =
      (r.map fun r => (f r.1, r.2)).map changeRest := by
  cases r <;> rfl

theorem bind_changeRest {α β : Type} {next : α × Text → Option (β × Text)}
    (h : ∀ r, next (changeRest r) = (next r).map changeRest) (r : Option (α × Text)) :
    (r.map changeRest).bind next = (r.bind next).map changeRest := by
  cases r with
  | none => rfl
  | some r => exact h r

section Brackets

variable {α : Type} {close : CodePoint} {read : Text → Option (List α × Text)}

theorem follows_readInside (hclose : close ≠ CodePoint.ofChar '<') (h : Follows read) :
    Follows (readInside close read) := by
  intro t
  rw [readInside, readInside]
  cases hstart : skipSpaces t with
  | nil =>
    rw [skipSpaces_scriptSafe, hstart]
    rfl
  | cons c s =>
    obtain ⟨⟨u, hu, hchange⟩, hnext⟩ := skipSpaces_scriptSafe_cons hstart
    by_cases hend : c = close
    · rw [hnext (hend ▸ hclose)]
      simp only [if_pos hend]
      rfl
    · rw [hu]
      simp only [if_neg hend]
      rw [← hchange, h]

theorem follows_readBehind (hclose : close ≠ CodePoint.ofChar '<') (h : Follows read) (a : α) :
    Follows (readBehind close a read) := by
  intro t
  rw [readBehind, readBehind]
  cases hstart : skipSpaces t with
  | nil =>
    rw [skipSpaces_scriptSafe, hstart]
    rfl
  | cons c s =>
    obtain ⟨⟨u, hu, _⟩, hnext⟩ := skipSpaces_scriptSafe_cons hstart
    by_cases hend : c = close
    · rw [hnext (hend ▸ hclose)]
      simp only [if_pos hend]
      rfl
    by_cases hcomma : c = CodePoint.ofChar ','
    · rw [hnext (by rw [hcomma]; decide)]
      simp only [if_neg hend, if_pos hcomma]
      rw [h, map_changeRest]
    · rw [hu]
      simp only [if_neg hend, if_neg hcomma]
      rfl

end Brackets

theorem follows_value {n : Nat} (hitems : Follows (readItems n))
    (hmembers : Follows (readMembers n)) : Follows (readValue (n + 1)) := by
  intro t
  rw [readValue_succ, readValue_succ]
  cases hstart : skipSpaces t with
  | nil =>
    rw [skipSpaces_scriptSafe, hstart]
    rfl
  | cons c s =>
    obtain ⟨⟨u, hu, hchange⟩, hnext⟩ := skipSpaces_scriptSafe_cons hstart
    by_cases hquote : c = CodePoint.ofChar '"'
    · rw [hnext (by rw [hquote]; decide)]
      simp only [if_pos hquote, readText_scriptSafe, map_changeRest]
    by_cases hbracket : c = CodePoint.ofChar '['
    · rw [hnext (by rw [hbracket]; decide)]
      simp only [if_neg hquote, if_pos hbracket]
      rw [follows_readInside (by decide) hitems, map_changeRest]
    by_cases hbrace : c = CodePoint.ofChar '\x7b'
    · rw [hnext (by rw [hbrace]; decide)]
      simp only [if_neg hquote, if_neg hbracket, if_pos hbrace]
      rw [follows_readInside (by decide) hmembers, map_changeRest]
    · rw [hu]
      simp only [if_neg hquote, if_neg hbracket, if_neg hbrace]
      rw [← hchange, readAtom_scriptSafe]

theorem follows_items {n : Nat} (hvalue : Follows (readValue n)) (hitems : Follows (readItems n)) :
    Follows (readItems (n + 1)) := by
  intro t
  rw [readItems_succ, readItems_succ, hvalue]
  exact bind_changeRest (fun r => follows_readBehind (by decide) hitems r.1 r.2) _

theorem follows_members {n : Nat} (hvalue : Follows (readValue n))
    (hmembers : Follows (readMembers n)) : Follows (readMembers (n + 1)) := by
  intro t
  rw [readMembers_succ, readMembers_succ, readKey_scriptSafe]
  refine bind_changeRest (fun k => ?_) _
  rw [changeRest, hvalue]
  exact bind_changeRest (fun r => follows_readBehind (by decide) hmembers (k.1, r.1) r.2) _

theorem follows (n : Nat) :
    Follows (readValue n) ∧ Follows (readItems n) ∧ Follows (readMembers n) := by
  induction n with
  | zero =>
    refine ⟨fun t => ?_, fun t => ?_, fun t => ?_⟩
    · rw [readValue.eq_1, readValue.eq_1]; rfl
    · rw [readItems.eq_1, readItems.eq_1]; rfl
    · rw [readMembers.eq_1, readMembers.eq_1]; rfl
  | succ n ih =>
    obtain ⟨hvalue, hitems, hmembers⟩ := ih
    exact ⟨follows_value hitems hmembers, follows_items hvalue hitems,
      follows_members hvalue hmembers⟩

/-- **The changed text is read as the text.** -/
theorem read?_scriptSafe (t : Text) : read? (scriptSafe t) = read? t := by
  refine Option.ext fun v => ?_
  rw [read?_eq_some, read?_eq_some]
  refine exists_congr fun n => ?_
  rw [(follows n).1 t]
  constructor
  · rintro ⟨_, hread, hrest⟩
    obtain ⟨⟨_, rest⟩, hread', hv⟩ := Option.map_eq_some_iff.mp hread
    cases hv
    -- What is left is blank if its change is.
    rw [skipSpaces_scriptSafe, scriptSafe_eq_nil] at hrest
    exact ⟨rest, hread', hrest⟩
  · rintro ⟨rest, hread, hrest⟩
    refine ⟨scriptSafe rest, by rw [hread]; rfl, ?_⟩
    rw [skipSpaces_scriptSafe, hrest]
    rfl

end Values

end Json

/-! ### Closing tags -/

/-- The first two code points of a closing tag. -/
def closing : Text := "</"

/-- What stands in a text from each closing tag on. -/
def closings (t : Text) : List Text := t.tails.filter (closing <+: ·)

section Closings

variable {c : CodePoint} {s t : Text}

theorem closing_isPrefix_cons_iff :
    closing <+: c :: t ↔ c = CodePoint.ofChar '<' ∧ t.head? = some (CodePoint.ofChar '/') := by
  show [CodePoint.ofChar '<', CodePoint.ofChar '/'] <+: c :: t ↔ _
  rw [List.cons_prefix_cons, eq_comm]
  cases t with
  | nil => simp
  | cons d t => simp [eq_comm]

theorem closing_isInfix_cons_iff : closing <:+: c :: t ↔
    (c = CodePoint.ofChar '<' ∧ t.head? = some (CodePoint.ofChar '/')) ∨ closing <:+: t := by
  rw [List.infix_cons_iff, closing_isPrefix_cons_iff]

/-- **The changed text closes nothing.** -/
theorem not_closes_scriptSafe (t : Text) : ¬ closing <:+: scriptSafe t := by
  induction t with
  | nil => decide
  | cons c t ih =>
    rw [scriptSafe]
    split
    · -- The backslash stands between the bracket and the slash.
      have hbackslash : CodePoint.ofChar '\\' ≠ CodePoint.ofChar '<' ∧
          CodePoint.ofChar '\\' ≠ CodePoint.ofChar '/' := by decide
      simp [closing_isInfix_cons_iff, hbackslash, ih]
    · next hc =>
      rw [closing_isInfix_cons_iff, head?_scriptSafe, not_or]
      exact ⟨hc, ih⟩

theorem closings_cons_of_not
    (h : ¬ (c = CodePoint.ofChar '<' ∧ t.head? = some (CodePoint.ofChar '/'))) :
    closings (c :: t) = closings t := by
  rw [closings, List.tails_cons, List.filter_cons_of_neg, closings]
  rwa [decide_eq_true_eq, closing_isPrefix_cons_iff]

/-- A part that closes nothing has no closing tags, unless it leaves a bracket before a slash. -/
theorem closings_append (hs : ¬ closing <:+: s) (hseam : s.getLast? ≠ some (CodePoint.ofChar '<') ∨
    t.head? ≠ some (CodePoint.ofChar '/')) : closings (s ++ t) = closings t := by
  induction s with
  | nil => rfl
  | cons c s ih =>
    rw [closing_isInfix_cons_iff, not_or] at hs
    cases s with
    | nil =>
      -- A closing tag that is in neither part would begin where they meet.
      refine closings_cons_of_not ?_
      rintro ⟨rfl, ht⟩
      exact hseam.elim (fun h => h rfl) fun h => h ht
    | cons d s =>
      rw [List.getLast?_cons_cons] at hseam
      rw [List.cons_append, closings_cons_of_not, ih hs.2 hseam]
      exact hs.1

/-- Lines that close nothing have no closing tags. -/
theorem closings_lines_append {parts : List Text} (h : ∀ part ∈ parts, ¬ closing <:+: part)
    (ht : t.head? ≠ some (CodePoint.ofChar '/')) : closings (lines parts ++ t) = closings t := by
  induction parts with
  | nil => rfl
  | cons part parts ih =>
    obtain ⟨hpart, hparts⟩ := List.forall_mem_cons.mp h
    cases parts with
    | nil =>
      rw [lines, Text.join, List.intercalate_singleton]
      exact closings_append hpart (Or.inr ht)
    | cons next parts =>
      have hline : lines (part :: next :: parts) ++ t =
          part ++ CodePoint.ofChar '\n' :: (lines (next :: parts) ++ t) := by
        simp [lines, Text.join]
      have hfeed : CodePoint.ofChar '\n' ≠ CodePoint.ofChar '/' ∧
          CodePoint.ofChar '\n' ≠ CodePoint.ofChar '<' := by decide
      rw [hline, closings_append hpart (Or.inr (by simp [hfeed])),
        closings_cons_of_not fun hc => hfeed.2 hc.1, ih hparts]

/-- A literal is the list of its characters, which is looked through faster. -/
theorem not_closes_ofString {literal : String} {chars : List Char}
    (hs : literal = String.ofList chars) (h : ¬ closing <:+: chars.map CodePoint.ofChar) :
    ¬ closing <:+: ofString literal := by
  have htext : ofString literal = chars.map CodePoint.ofChar := by
    rw [hs, ofString, String.toList_ofList]
  rwa [htext]

end Closings

/-! ### The page's script -/

/-- The page before the script's texts. -/
def Bundle.beforeScript (b : Bundle) (title : Text) : Text :=
  (skeleton.take 25).flatMap (Piece.render (b.fill title))

/-- The page from the narration on. -/
def Bundle.fromScript (b : Bundle) : Text :=
  "var NARRATION = " ++ (scriptSafe b.narration ++ (";\nvar ANIMATIONS = " ++
    (scriptSafe b.mapping ++ (";\n" ++ (player ++ "\n</script>\n</body>\n</html>\n")))))

theorem render_eq_append (b : Bundle) (title : Text) :
    b.render title = b.beforeScript title ++ b.fromScript := by
  rw [Bundle.render, ← List.take_append_drop 25 skeleton, List.flatMap_append]
  refine congrArg (b.beforeScript title ++ ·) ?_
  simp only [skeleton, List.drop_succ_cons, List.drop_zero, List.flatMap_cons, List.flatMap_nil,
    Piece.render, Bundle.fill, Bundle.fromScript, List.append_nil]
  simp [Text.ofString]

/-- No line of the player closes anything. -/
theorem closings_player_append {t : Text} (ht : t.head? ≠ some (CodePoint.ofChar '/')) :
    closings (player ++ t) = closings t := by
  refine closings_lines_append ?_ ht
  simp only [List.map_cons, List.map_nil, List.forall_mem_cons]
  repeat refine ⟨not_closes_ofString rfl (by decide +kernel), ?_⟩
  exact List.forall_mem_nil _

/-- **Only the skeleton closes what is open around the script.** -/
theorem closings_fromScript (b : Bundle) : closings b.fromScript =
    ["</script>\n</body>\n</html>\n", "</body>\n</html>\n", "</html>\n"] := by
  have hslash : ∀ {t : Text}, t.head? = some (CodePoint.ofChar ';') →
      t.head? ≠ some (CodePoint.ofChar '/') := by
    intro t h
    rw [h]
    decide
  rw [Bundle.fromScript, closings_append (by decide) (Or.inl (by decide)),
    closings_append (not_closes_scriptSafe _) (Or.inr (hslash rfl)),
    closings_append (by decide) (Or.inl (by decide)),
    closings_append (not_closes_scriptSafe _) (Or.inr (hslash rfl)),
    closings_append (by decide) (Or.inl (by decide)), closings_player_append (by decide)]
  decide +kernel

/-- **What is embedded in the script closes nothing and is read as before.** From the narration to
its end, the page has the closing tags of its skeleton alone. -/
theorem script_embeds :
    (∀ t : Text, ¬ closing <:+: scriptSafe t) ∧
      (∀ t : Text, Json.read? (scriptSafe t) = Json.read? t) ∧
      (∀ as : Animations, Json.read? (scriptSafe as.mapping) = some as.payload) ∧
      (∀ d : Document, Json.read? (scriptSafe d.narration) = some d.payload) ∧
      ∀ (b : Bundle) (title : Text), b.render title = b.beforeScript title ++ b.fromScript ∧
        closings b.fromScript =
          ["</script>\n</body>\n</html>\n", "</body>\n</html>\n", "</html>\n"] := by
  refine ⟨not_closes_scriptSafe, Json.read?_scriptSafe, fun as => ?_, fun d => ?_,
    fun b title => ?_⟩
  · rw [Json.read?_scriptSafe, Animations.mapping, Json.read?_print]
  · rw [Json.read?_scriptSafe, Document.narration, Json.read?_print]
  · exact ⟨render_eq_append b title, closings_fromScript b⟩

end SvgDeck
