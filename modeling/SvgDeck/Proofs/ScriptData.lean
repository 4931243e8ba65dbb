/-
How a browser reads a safe script.

In a safe text a backslash stands before each slash that follows a bracket, so the tokenizer never
comes behind the slash of an end tag.  What is left of it is a machine that is in one of three
modes: plain, escaped, or double escaped.  A code point that means nothing to it leads to the base
of its mode, and so does every escape of JSON.

* `run_scriptSafe` — over a safe text the tokenizer goes as that machine;
* `textStep_eq` — a code point of a text in print does what its kind says;
* `after_append_cons` — at a code point without meaning a text falls into two;
* `carries_printText` — what a text in print does to the mode, it does between its quotes.
-/
import SvgDeck.Page.ScriptData
import SvgDeck.Proofs.Script

namespace SvgDeck

open Text

namespace ScriptData

/-- How deep a script has escaped. -/
inductive Mode where
  | plain
  | escaped
  | doubleEscaped
deriving DecidableEq

def State.mode : State → Mode
  | .escaped | .escapedDash | .escapedDashDash | .escapedLessThan | .escapedEndTagOpen
  | .escapedEndTagName _ | .doubleEscapeStart _ => .escaped
  | .doubleEscaped | .doubleEscapedDash | .doubleEscapedDashDash | .doubleEscapedLessThan
  | .doubleEscapeEnd _ => .doubleEscaped
  | _ => .plain

/-- The state in which a mode begins over. -/
def Mode.base : Mode → State
  | .plain => .data
  | .escaped => .escaped
  | .doubleEscaped => .doubleEscaped

namespace State

/-- The tokenizer is not behind the slash of an end tag. -/
def isOpen : State → Bool
  | .endTagOpen | .endTagName _ | .escapedEndTagOpen | .escapedEndTagName _ | .doubleEscapeEnd _
  | .left => false
  | _ => true

/-- The last code point was an opening bracket. -/
def isBehindBracket : State → Bool
  | .lessThan | .escapedLessThan | .doubleEscapedLessThan => true
  | _ => false

/-- No tag and no comment mark has begun that has an opening bracket. -/
def isAtRest : State → Bool
  | .data | .escaped | .escapedDash | .escapedDashDash | .doubleEscaped | .doubleEscapedDash
  | .doubleEscapedDashDash => true
  | _ => false

end State

/-! ### Kinds -/

/-- The kinds that one code point has alone. -/
def marks : List (Kind × Char) :=
  [(.less, '<'), (.bang, '!'), (.dash, '-'), (.greater, '>'), (.slash, '/')]

theorem kind_eq_iff {c : CodePoint} {k : Kind} {x : Char} (hx : (k, x) ∈ marks) :
    kind c = k ↔ c = CodePoint.ofChar x := by
  have hmarks : ∀ m ∈ marks, kind (CodePoint.ofChar m.2) = m.1 := by decide
  refine ⟨fun h => ?_, fun h => h ▸ hmarks _ hx⟩
  simp only [marks, List.mem_cons, Prod.mk.injEq, List.not_mem_nil, or_false] at hx
  rw [kind] at h
  rcases hx with ⟨rfl, rfl⟩ | ⟨rfl, rfl⟩ | ⟨rfl, rfl⟩ | ⟨rfl, rfl⟩ | ⟨rfl, rfl⟩
  all_goals
    split_ifs at h
    assumption

/-! ### Texts that close nothing -/

/-- One step over a text in which a backslash stands before each slash behind a bracket. -/
def safeNext (s : State) (k : Kind) (small : CodePoint) : State :=
  if s.isBehindBracket ∧ k = .slash then s.mode.base else next s k small

def safeStep (s : State) (c : CodePoint) : State := safeNext s (kind c) c.toAsciiLower

section Steps

variable {s : State} {c : CodePoint} {k : Kind} {small : CodePoint} {t : Text}

theorem isOpen_safeNext (h : s.isOpen = true) : (safeNext s k small).isOpen = true := by
  cases s <;> cases k <;>
    simp_all [State.isOpen, safeNext, next, inData, inEscaped, inDoubleEscaped,
      State.isBehindBracket, State.mode, Mode.base]
  all_goals split_ifs <;> rfl

theorem isOpen_run_safeStep (h : s.isOpen = true) (t : Text) :
    (t.foldl safeStep s).isOpen = true := by
  induction t generalizing s with
  | nil => exact h
  | cons c t ih => exact ih (isOpen_safeNext h)

theorem isBehindBracket_step_less (h : s ≠ .left) :
    (step s (CodePoint.ofChar '<')).isBehindBracket = true := by
  cases s with
  | left => exact absurd rfl h
  | _ => rfl

theorem step_left (c : CodePoint) : step .left c = .left := rfl

/-- Behind the backslash and the slash the mode begins over. -/
theorem step_backslash (s : State) (hs : s.isBehindBracket = true) :
    step (step s (CodePoint.ofChar '\\')) (CodePoint.ofChar '/') = s.mode.base := by
  cases s with
  | lessThan => rfl
  | escapedLessThan => rfl
  | doubleEscapedLessThan => rfl
  | _ => cases hs

theorem less_of_isBehindBracket (h : (next s k small).isBehindBracket = true) : k = .less := by
  cases s <;> cases k <;>
    simp_all [next, inData, inEscaped, inDoubleEscaped, State.isBehindBracket]
  all_goals split_ifs at h

theorem safeStep_of_not (h : ¬ (s.isBehindBracket = true ∧ c = CodePoint.ofChar '/')) :
    safeStep s c = step s c := by
  rw [← kind_eq_iff (k := .slash) (x := '/') (by decide)] at h
  rw [safeStep, safeNext, if_neg h, step]

theorem safeStep_slash (h : s.isBehindBracket = true) :
    safeStep s (CodePoint.ofChar '/') = s.mode.base := if_pos ⟨h, rfl⟩

/-- **Over a safe text** the tokenizer goes as if no slash could follow a bracket. -/
theorem run_scriptSafe (hs : s.isBehindBracket = true → t.head? ≠ some (CodePoint.ofChar '/')) :
    run s (scriptSafe t) = t.foldl safeStep s := by
  induction t generalizing s with
  | nil => rfl
  | cons c t ih =>
    have hstep : safeStep s c = step s c :=
      safeStep_of_not fun h => hs h.1 (by rw [h.2, List.head?_cons])
    rw [scriptSafe, List.foldl_cons, hstep]
    split
    · next h =>
      obtain ⟨rfl, ht⟩ := h
      obtain ⟨u, rfl⟩ : ∃ u, t = CodePoint.ofChar '/' :: u := List.head?_eq_some_iff.mp ht
      -- The backslash that was put in leads to the same state as the slash alone.
      by_cases hleft : s = .left
      · subst hleft
        exact ih (by simp [step_left, State.isBehindBracket])
      have hbehind := isBehindBracket_step_less hleft
      have hback : (step (step s (CodePoint.ofChar '<')) (CodePoint.ofChar '\\')).isBehindBracket =
          false := Bool.eq_false_iff.mpr fun h => by cases less_of_isBehindBracket h
      show run (step (step s _) (CodePoint.ofChar '\\')) (scriptSafe (_ :: u)) = _
      rw [ih (by simp [hback]), List.foldl_cons, List.foldl_cons, safeStep_slash hbehind,
        safeStep_of_not (by simp [hback]), step_backslash _ hbehind]
    · next h =>
      have hless : (step s c).isBehindBracket = true → c = CodePoint.ofChar '<' := fun hbehind =>
        (kind_eq_iff (by decide)).mp (less_of_isBehindBracket hbehind)
      exact ih fun hbehind ht => h ⟨hless hbehind, ht⟩

end Steps

/-! ### Texts in print -/

/-- What a code point of a text is to the tokenizer when the text is printed as JSON. -/
def textKind (c : CodePoint) : Kind := if Json.escape c = [c] then kind c else .other

/-- A code point of a text that is printed as JSON. -/
def textStep (s : State) (c : CodePoint) : State := (Json.escape c).foldl safeStep s

section Printed

variable {s : State} {c : CodePoint} {m : Mode} {t : Text}

theorem safeNext_other (hs : s.isOpen = true) (small : CodePoint) :
    safeNext s .other small = s.mode.base := by
  cases s <;> simp_all [State.isOpen] <;> rfl

/-- Escapes leave the base of a mode alone. -/
theorem foldl_safeStep_base (h : ∀ d ∈ t, kind d = .letter ∨ kind d = .other) :
    t.foldl safeStep m.base = m.base := by
  induction t with
  | nil => rfl
  | cons d t ih =>
    obtain ⟨hd, ht⟩ := List.forall_mem_cons.mp h
    have hstep : safeStep m.base d = m.base := by
      rw [safeStep]
      rcases hd with hd | hd <;> rw [hd] <;> cases m <;> rfl
    rw [List.foldl_cons, hstep, ih ht]

/-- What is not printed as it is begins with a backslash. -/
theorem escape_eq_or (c : CodePoint) : Json.escape c = [c] ∨
    ∃ t, Json.escape c = CodePoint.ofChar '\\' :: t ∧
      ∀ d ∈ t, kind d = .letter ∨ kind d = .other := by
  have hhex : ∀ n < 0x20, ∀ d ∈ Text.hex 4 n, kind d = .letter ∨ kind d = .other := by
    decide +kernel
  rw [Json.escape]
  split_ifs with _ _ _ _ _ _ _ hcontrol
  · exact .inr ⟨_, rfl, by decide⟩
  · exact .inr ⟨_, rfl, by decide⟩
  · exact .inr ⟨_, rfl, by decide⟩
  · exact .inr ⟨_, rfl, by decide⟩
  · exact .inr ⟨_, rfl, by decide⟩
  · exact .inr ⟨_, rfl, by decide⟩
  · exact .inr ⟨_, rfl, by decide⟩
  · exact .inr ⟨_, rfl, List.forall_mem_cons.mpr ⟨.inl rfl, hhex _ hcontrol⟩⟩
  · exact .inl rfl

theorem textStep_eq (hs : s.isOpen = true) :
    textStep s c = safeNext s (textKind c) c.toAsciiLower := by
  rw [textStep, textKind]
  split
  · next h => rw [h]; rfl
  · next h =>
    obtain ⟨t, ht, hparts⟩ := (escape_eq_or c).resolve_left h
    rw [ht, List.foldl_cons, safeNext_other hs]
    have hbackslash : safeStep s (CodePoint.ofChar '\\') = s.mode.base := safeNext_other hs _
    rw [hbackslash, foldl_safeStep_base hparts]

theorem isOpen_textStep (hs : s.isOpen = true) : (textStep s c).isOpen = true :=
  isOpen_run_safeStep hs _

theorem isOpen_foldl_textStep (hs : s.isOpen = true) (t : Text) :
    (t.foldl textStep s).isOpen = true := by
  induction t generalizing s with
  | nil => exact hs
  | cons c t ih => exact ih (isOpen_textStep hs)

theorem isOpen_base (m : Mode) : m.base.isOpen = true := by
  cases m <;> rfl

theorem mode_base (m : Mode) : m.base.mode = m := by
  cases m <;> rfl

/-- The mode behind a text, for the mode before it. -/
def after (t : Text) (m : Mode) : Mode := (t.foldl textStep m.base).mode

theorem after_nil (m : Mode) : after [] m = m := mode_base m

/-- Where a code point means nothing to the tokenizer, a text falls into two. -/
theorem after_append_cons (hc : textKind c = .other) (t u : Text) (m : Mode) :
    after (t ++ c :: u) m = after u (after t m) := by
  have hopen := isOpen_foldl_textStep (isOpen_base m) t
  have hstep : textStep (t.foldl textStep m.base) c = (after t m).base := by
    rw [textStep_eq hopen, hc, safeNext_other hopen, after]
  rw [after, List.foldl_append, List.foldl_cons, hstep, ← after]

end Printed

/-! ### What a text does to the mode -/

/-- From a state at rest the text leads to one, and from mode to mode as `f` says. -/
def Carries (σ : State → CodePoint → State) (t : Text) (f : Mode → Mode) : Prop :=
  ∀ s : State, s.isAtRest = true → (t.foldl σ s).isAtRest = true ∧ (t.foldl σ s).mode = f s.mode

section Carrying

variable {σ : State → CodePoint → State} {s : State} {c : CodePoint} {t u : Text}
  {f g : Mode → Mode}

theorem isOpen_of_isAtRest (h : s.isAtRest = true) : s.isOpen = true := by
  cases s <;> simp_all [State.isAtRest, State.isOpen]

theorem isBehindBracket_of_isAtRest (h : s.isAtRest = true) : s.isBehindBracket = false := by
  cases s <;> simp_all [State.isAtRest, State.isBehindBracket]

theorem isAtRest_base (m : Mode) : m.base.isAtRest = true := by
  cases m <;> rfl

theorem carries_nil : Carries σ [] id := fun _ h => ⟨h, rfl⟩

theorem Carries.append (ht : Carries σ t f) (hu : Carries σ u g) :
    Carries σ (t ++ u) fun m => g (f m) := by
  intro s hs
  obtain ⟨hrest, hmode⟩ := ht s hs
  obtain ⟨hrest', hmode'⟩ := hu _ hrest
  rw [List.foldl_append]
  exact ⟨hrest', by rw [hmode', hmode]⟩

theorem Carries.scriptSafe (ht : Carries safeStep t f) : Carries step (scriptSafe t) f := by
  intro s hs
  have hrun := run_scriptSafe (s := s) (t := t) (by simp [isBehindBracket_of_isAtRest hs])
  rw [run] at hrun
  rw [hrun]
  exact ht s hs

/-- The states at rest. -/
def restStates : List State :=
  [.data, .escaped, .escapedDash, .escapedDashDash, .doubleEscaped, .doubleEscapedDash,
    .doubleEscapedDashDash]

/-- What holds of a text at all states at rest, which are few. -/
theorem carries_id_of_forall
    (h : ∀ s ∈ restStates, (t.foldl σ s).isAtRest = true ∧ (t.foldl σ s).mode = s.mode) :
    Carries σ t id := by
  intro s hs
  refine h s ?_
  cases s <;> simp_all [State.isAtRest, restStates]

/-- A code point that is no bracket. -/
def IsCalm (c : CodePoint) : Prop := c ≠ CodePoint.ofChar '<' ∧ c ≠ CodePoint.ofChar '>'

instance : DecidablePred IsCalm := fun _ => inferInstanceAs (Decidable (_ ∧ _))

/-- Without brackets the mode stays. -/
theorem carries_id_of_isCalm (h : ∀ c ∈ t, IsCalm c) : Carries safeStep t id := by
  induction t with
  | nil => exact carries_nil
  | cons c t ih =>
    obtain ⟨hc, ht⟩ := List.forall_mem_cons.mp h
    refine Carries.append (t := [c]) (fun s hs => ?_) (ih ht)
    have hless : kind c ≠ .less := fun h => hc.1 ((kind_eq_iff (by decide)).mp h)
    have hgreater : kind c ≠ .greater := fun h => hc.2 ((kind_eq_iff (by decide)).mp h)
    rw [List.foldl_cons, List.foldl_nil, safeStep]
    generalize kind c = k at hless hgreater
    cases s <;> cases k <;> simp_all [State.isAtRest, safeNext, next, inData, inEscaped,
      inDoubleEscaped, State.mode, State.isBehindBracket]

theorem foldl_flatMap_escape (s : State) (t : Text) :
    (t.flatMap Json.escape).foldl safeStep s = t.foldl textStep s := List.foldl_flatMap

/-- Between its quotes a text does what it does on its own. -/
theorem carries_printText (t : Text) : Carries safeStep (Json.printText t) (after t) := by
  intro s hs
  have hquote : ∀ {s : State}, s.isOpen = true →
      safeStep s (CodePoint.ofChar '"') = s.mode.base := fun hopen => safeNext_other hopen _
  have hend := hquote (isOpen_foldl_textStep (isOpen_base s.mode) t)
  have hall : (Json.printText t).foldl safeStep s = (after t s.mode).base := by
    show ([CodePoint.ofChar '"'] ++ t.flatMap Json.escape ++ [CodePoint.ofChar '"']).foldl _ _ = _
    rw [List.foldl_append, List.foldl_append, foldl_flatMap_escape]
    show safeStep (t.foldl textStep (safeStep s _)) _ = _
    rw [hquote (isOpen_of_isAtRest hs), hend, after]
  rw [hall]
  exact ⟨isAtRest_base _, mode_base _⟩

end Carrying

end ScriptData

end SvgDeck
