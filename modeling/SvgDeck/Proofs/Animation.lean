/-
What becomes of directives.

A directive compiles to the same markup for every flow it may stand in; only its faults
name the flow.  `compileFocus_eq_ok`, `compileFocus_eq_error` and their twins for
highlights say when a directive compiles and what is said of it otherwise.  A flow fails
by its focus first (`animation_eq_error`).

`outcome_compileAnimations` describes the pass over flows with different ids: no id is
ever met twice, so the pass is one over the flows' own animations, and flows without a
directive leave no trace in its result.
-/
import SvgDeck.Animation
import SvgDeck.Proofs.FirstFault

namespace SvgDeck

/-! ### One directive -/

theorem checkDuration_eq_ok {kind : DirectiveKind} {flow : Text} {timing : Directive.Timing}
    {d : Decimal} :
    checkDuration kind flow timing = .ok d ↔
      timing.duration? = some d ∧ d.isBelowZero = false := by
  rw [checkDuration]
  cases timing.duration? with
  | none => simp
  | some d' =>
    by_cases hd : d'.isBelowZero = true
    · simp only [if_pos hd, reduceCtorEq, Option.some.injEq, false_iff, not_and]
      rintro rfl
      simp [hd]
    · simp only [if_neg hd, Except.ok.injEq, Option.some.injEq]
      constructor
      · rintro rfl
        exact ⟨rfl, by simpa using hd⟩
      · exact fun h => h.1

theorem checkDuration_eq_error {kind : DirectiveKind} {flow : Text} {timing : Directive.Timing}
    {f : Failure} :
    checkDuration kind flow timing = .error f ↔
      (timing.duration? = none ∧ f = durationFailure timing) ∨
      ((∃ d, timing.duration? = some d ∧ d.isBelowZero = true) ∧
        f = .reported (.negativeDuration kind flow timing)) := by
  rw [checkDuration]
  cases timing.duration? with
  | none => simpa using eq_comm
  | some d =>
    by_cases hd : d.isBelowZero = true
    · simpa [hd] using eq_comm
    · simp [hd]

theorem map_eq_ok {α β ε : Type} {x : Except ε α} {g : α → β} {b : β} :
    x.map g = .ok b ↔ ∃ a, x = .ok a ∧ g a = b := by
  cases x with
  | ok a => simp [Except.map]
  | error e => simp [Except.map]

theorem map_eq_error {α β ε : Type} {x : Except ε α} {g : α → β} {e : ε} :
    x.map g = .error e ↔ x = .error e := by
  cases x with
  | ok a => simp [Except.map]
  | error e' => simp [Except.map]

theorem compileFocus_eq_ok {t flow m : Text} :
    compileFocus t flow = .ok m ↔ ∃ focus d, Directive.Focus.parse t = .ok focus ∧
      focus.timing.duration? = some d ∧ d.isBelowZero = false ∧ focus.markup d = m := by
  rw [compileFocus]
  cases Directive.Focus.parse t with
  | error fault => simp
  | ok focus =>
    simp only [map_eq_ok, checkDuration_eq_ok, Except.ok.injEq]
    constructor
    · rintro ⟨d, ⟨hd, hpos⟩, hm⟩
      exact ⟨focus, d, rfl, hd, hpos, hm⟩
    · rintro ⟨focus', d, rfl, hd, hpos, hm⟩
      exact ⟨d, ⟨hd, hpos⟩, hm⟩

theorem compileFocus_eq_error {t flow : Text} {f : Failure} :
    compileFocus t flow = .error f ↔
      (∃ fault, Directive.Focus.parse t = .error fault ∧
        f = .reported (.malformed .focus flow t fault)) ∨
      ∃ focus, Directive.Focus.parse t = .ok focus ∧
        checkDuration .focus flow focus.timing = .error f := by
  rw [compileFocus]
  cases Directive.Focus.parse t with
  | error fault => simpa using eq_comm
  | ok focus => simp [map_eq_error]

theorem compileHighlight_eq_ok {t flow m : Text} :
    compileHighlight t flow = .ok m ↔ ∃ highlight d, Directive.Highlight.parse t = .ok highlight ∧
      highlight.color.any CodePoint.isSurrogate = false ∧
      highlight.timing.duration? = some d ∧ d.isBelowZero = false ∧ highlight.markup d = m := by
  rw [compileHighlight]
  cases Directive.Highlight.parse t with
  | error fault => simp
  | ok highlight =>
    by_cases hc : highlight.color.any CodePoint.isSurrogate = true
    · simp only [if_pos hc, reduceCtorEq, Except.ok.injEq, false_iff]
      rintro ⟨highlight', d, rfl, hc', _⟩
      rw [hc] at hc'
      cases hc'
    · simp only [if_neg hc, map_eq_ok, checkDuration_eq_ok, Except.ok.injEq]
      constructor
      · rintro ⟨d, ⟨hd, hpos⟩, hm⟩
        exact ⟨highlight, d, rfl, by simpa using hc, hd, hpos, hm⟩
      · rintro ⟨highlight', d, rfl, _, hd, hpos, hm⟩
        exact ⟨d, ⟨hd, hpos⟩, hm⟩

theorem compileHighlight_eq_error {t flow : Text} {f : Failure} :
    compileHighlight t flow = .error f ↔
      (∃ fault, Directive.Highlight.parse t = .error fault ∧
        f = .reported (.malformed .highlight flow t fault)) ∨
      ∃ highlight, Directive.Highlight.parse t = .ok highlight ∧
        ((highlight.color.any CodePoint.isSurrogate = true ∧
            f = .rejected [⟨[.key "color"], .notUnicode⟩]) ∨
          (highlight.color.any CodePoint.isSurrogate = false ∧
            checkDuration .highlight flow highlight.timing = .error f)) := by
  rw [compileHighlight]
  cases Directive.Highlight.parse t with
  | error fault => simpa using eq_comm
  | ok highlight =>
    by_cases hc : highlight.color.any CodePoint.isSurrogate = true
    · simp only [reduceCtorEq, false_and, exists_false, false_or, Except.ok.injEq,
        exists_eq_left', if_pos hc, Except.error.injEq]
      constructor
      · exact fun h => Or.inl ⟨hc, h.symm⟩
      · rintro (⟨_, h⟩ | ⟨h, _⟩)
        · exact h.symm
        · exact absurd hc (by simp [h])
    · simp only [reduceCtorEq, false_and, exists_false, false_or, Except.ok.injEq,
        exists_eq_left', if_neg hc, map_eq_error]
      constructor
      · exact fun h => Or.inr ⟨by simpa using hc, h⟩
      · rintro (⟨h, _⟩ | ⟨_, h⟩)
        · exact absurd h hc
        · exact h

/-! ### The directives of a flow -/

/-- `markup` is what a directive compiles to, or nothing if there is no directive. -/
inductive CompiledTo (compile : Text → Except Failure Text) : Option Text → Option Text → Prop
  | unset : CompiledTo compile none none
  | set {t m : Text} (h : compile t = .ok m) : CompiledTo compile (some t) (some m)

theorem exists_compiledTo_iff {compile : Text → Except Failure Text} {directive : Option Text} :
    (∃ markup, CompiledTo compile directive markup) ↔
      ∀ t ∈ directive, ∃ m, compile t = .ok m := by
  cases directive with
  | none => exact iff_of_true ⟨none, .unset⟩ (by simp)
  | some t =>
    simp only [Option.mem_some_iff, forall_eq']
    constructor
    · rintro ⟨_, _ | hm⟩
      exact ⟨_, hm⟩
    · rintro ⟨m, hm⟩
      exact ⟨some m, .set hm⟩

theorem compileIfSet_eq_ok {compile : Text → Except Failure Text} {directive markup : Option Text} :
    compileIfSet compile directive = .ok markup ↔ CompiledTo compile directive markup := by
  cases directive with
  | none =>
    constructor
    · intro h
      cases h
      exact .unset
    · rintro ⟨⟩
      rfl
  | some t =>
    rw [compileIfSet, map_eq_ok]
    constructor
    · rintro ⟨m, hm, rfl⟩
      exact .set hm
    · rintro (_ | hm)
      exact ⟨_, hm, rfl⟩

theorem compileIfSet_eq_error {compile : Text → Except Failure Text} {directive : Option Text}
    {f : Failure} :
    compileIfSet compile directive = .error f ↔ ∃ t, directive = some t ∧ compile t = .error f := by
  cases directive with
  | none => simp [compileIfSet]
  | some t => simp [compileIfSet, map_eq_error]

/-- Whether a flow has a directive. -/
def Flow.hasDirective (f : Flow) : Bool := f.focus.isSome || f.highlight.isSome

theorem hasDirective_eq_false {f : Flow} :
    f.hasDirective = false ↔ f.focus = none ∧ f.highlight = none := by
  simp [Flow.hasDirective]

theorem animation_of_hasDirective {f : Flow} (h : f.hasDirective = true) :
    f.animation = do
      let focus ← compileIfSet (compileFocus · f.id) f.focus
      let highlight ← compileIfSet (compileHighlight · f.id) f.highlight
      return some { focus, highlight } := by
  rw [Flow.animation, if_neg]
  rw [← hasDirective_eq_false, h]
  decide

theorem animation_eq_none {f : Flow} : f.animation = .ok none ↔ f.hasDirective = false := by
  cases h : f.hasDirective with
  | false => simp [Flow.animation, hasDirective_eq_false.mp h]
  | true =>
    rw [animation_of_hasDirective h]
    simp [bind_eq_ok]

theorem animation_eq_some {f : Flow} {a : Animation} :
    f.animation = .ok (some a) ↔ f.hasDirective = true ∧
      CompiledTo (compileFocus · f.id) f.focus a.focus ∧
      CompiledTo (compileHighlight · f.id) f.highlight a.highlight := by
  cases h : f.hasDirective with
  | false => simp [Flow.animation, hasDirective_eq_false.mp h]
  | true =>
    rw [animation_of_hasDirective h]
    simp only [bind_eq_ok, compileIfSet_eq_ok, true_and]
    constructor
    · rintro ⟨focus, hf, highlight, hh, ha⟩
      cases ha
      exact ⟨hf, hh⟩
    · rintro ⟨hf, hh⟩
      exact ⟨a.focus, hf, a.highlight, hh, rfl⟩

/-- A flow fails by its focus, or by its highlight where the focus compiles. -/
theorem animation_eq_error {f : Flow} {e : Failure} :
    f.animation = .error e ↔
      (∃ t, f.focus = some t ∧ compileFocus t f.id = .error e) ∨
      ((∃ m, CompiledTo (compileFocus · f.id) f.focus m) ∧
        ∃ t, f.highlight = some t ∧ compileHighlight t f.id = .error e) := by
  cases h : f.hasDirective with
  | false => simp [Flow.animation, hasDirective_eq_false.mp h]
  | true =>
    rw [animation_of_hasDirective h, bind_eq_error, compileIfSet_eq_error]
    refine or_congr Iff.rfl ?_
    simp only [compileIfSet_eq_ok, bind_eq_error, compileIfSet_eq_error]
    constructor
    · rintro ⟨m, hm, ht | ⟨_, _, hcontra⟩⟩
      · exact ⟨⟨m, hm⟩, ht⟩
      · cases hcontra
    · rintro ⟨⟨m, hm⟩, ht⟩
      exact ⟨m, hm, Or.inl ht⟩

/-! ### The directives of all flows -/

/-- What a flow adds to the animations: nothing if it has no directive. -/
def Flow.animationEntry (f : Flow) : Except Failure (Option (Text × Animation)) :=
  f.animation.map fun a => a.map (f.id, ·)

/-- One step of the pass, past a flow whose id is new. -/
theorem compileAfter_cons {seen : List Text} {ref : FlowRef} {refs : List FlowRef}
    (h : ref.flow.id ∉ seen) :
    (compileAfter seen (ref :: refs)).outcome = (do
      let entry ← ref.flow.animationEntry
      let more ← (compileAfter (ref.flow.id :: seen) refs).outcome
      return entry.toList ++ more) := by
  show (ite (ref.flow.id ∈ seen) _ _ : Run Animations).outcome = _
  -- The id is new, so its flow is compiled, and the log has no part in the outcome.
  rw [if_neg h, Run.outcome_bind, Run.outcome_ofExcept, Flow.animationEntry]
  cases ref.flow.animation with
  | error e => rfl
  | ok animation =>
    cases animation with
    | none =>
      simp only [ok_bind, Except.map, Option.map_none, Option.toList_none, List.nil_append]
      cases (compileAfter (ref.flow.id :: seen) refs).outcome <;> rfl
    | some a =>
      simp only [ok_bind, Run.outcome_bind, Run.outcome_write]
      rfl

theorem outcome_compileAfter {seen : List Text} {refs : List FlowRef}
    (hn : (refs.map (·.flow.id)).Nodup) (hs : ∀ ref ∈ refs, ref.flow.id ∉ seen) :
    (compileAfter seen refs).outcome =
      ((refs.map (·.flow)).mapM Flow.animationEntry).map (·.filterMap id) := by
  induction refs generalizing seen with
  | nil => rfl
  | cons ref refs ih =>
    rw [List.map_cons, List.nodup_cons] at hn
    -- What was seen grows by this id, which no later flow has.
    have hrest : ∀ r ∈ refs, r.flow.id ∉ ref.flow.id :: seen := by
      intro r hr hm
      rcases List.mem_cons.mp hm with hm | hm
      · exact hn.1 (hm ▸ List.mem_map.mpr ⟨r, hr, rfl⟩)
      · exact hs r (List.mem_cons_of_mem _ hr) hm
    rw [compileAfter_cons (hs ref List.mem_cons_self), ih hn.2 hrest, List.map_cons, List.mapM_cons]
    cases ref.flow.animationEntry with
    | error e => rfl
    | ok entry =>
      cases (refs.map (·.flow)).mapM Flow.animationEntry with
      | error e => rfl
      | ok entries => cases entry <;> rfl

/-- The pass over flows with different ids is one over their own animations. -/
theorem outcome_compileAnimations {refs : List FlowRef} (hn : (refs.map (·.flow.id)).Nodup) :
    (compileAnimations refs).outcome =
      ((refs.map (·.flow)).mapM Flow.animationEntry).map (·.filterMap id) := by
  rw [compileAnimations, Run.outcome_bind, outcome_compileAfter hn fun _ _ => List.not_mem_nil]
  cases (refs.map (·.flow)).mapM Flow.animationEntry <;> rfl

end SvgDeck
