/-
The pass over the directives of all flows.

Here the flows may be any, also such whose ids repeat.  A flow is at fault if its id was met before,
or else if its focus does not compile, or else if its highlight does not (`FlowFault`).  One step
fails exactly as the flow in front is at fault (`compileAfter_cons_of_fault`), and otherwise adds
its entry and its id, so by induction over the flows

* `compileAfter_eq_error` — the pass fails as the first flow at fault;
* `compileAfter_eq_ok` — without one it returns an entry for each flow that has a directive.

`compileAnimations_decided` puts both together.
-/
import SvgDeck.Proofs.Animation
import Mathlib.Data.List.Nodup
import Mathlib.Data.Nat.Find

namespace SvgDeck

variable {seen : List Text} {f : Flow} {ref : FlowRef} {refs : List FlowRef} {e : Failure}

/-! ### Faults -/

/-- How the pass fails at a flow that comes behind flows with the ids `seen`. -/
inductive FlowFault (seen : List Text) (f : Flow) : Failure → Prop
  | duplicate (h : f.id ∈ seen) : FlowFault seen f (.reported (.duplicateId f.id))
  | focus (new : f.id ∉ seen) {t : Text} {e : Failure} (declared : f.focus = some t)
    (fails : compileFocus t f.id = .error e) : FlowFault seen f e
  | highlight (new : f.id ∉ seen) {t : Text} {e : Failure}
    (compiles : ∃ m, CompiledTo (compileFocus · f.id) f.focus m) (declared : f.highlight = some t)
    (fails : compileHighlight t f.id = .error e) : FlowFault seen f e

/-- A flow whose id is new is at fault as its directives are. -/
theorem flowFault_of_new (h : f.id ∉ seen) : FlowFault seen f e ↔ f.animation = .error e := by
  rw [animation_eq_error]
  constructor
  · rintro (hmem | ⟨_, declared, fails⟩ | ⟨_, compiles, declared, fails⟩)
    · exact absurd hmem h
    · exact Or.inl ⟨_, declared, fails⟩
    · exact Or.inr ⟨compiles, _, declared, fails⟩
  · rintro (⟨t, declared, fails⟩ | ⟨compiles, t, declared, fails⟩)
    · exact .focus h declared fails
    · exact .highlight h compiles declared fails

theorem flowFault_of_mem (h : f.id ∈ seen) :
    FlowFault seen f e ↔ e = .reported (.duplicateId f.id) := by
  constructor
  · rintro (_ | ⟨new, _⟩ | ⟨new, _⟩)
    · rfl
    · exact absurd h new
    · exact absurd h new
  · rintro rfl
    exact .duplicate h

/-- Nothing but the members of `seen` counts. -/
theorem FlowFault.congr {seen' : List Text} (h : f.id ∈ seen ↔ f.id ∈ seen') :
    FlowFault seen f e ↔ FlowFault seen' f e := by
  by_cases hmem : f.id ∈ seen
  · rw [flowFault_of_mem hmem, flowFault_of_mem (h.mp hmem)]
  · rw [flowFault_of_new hmem, flowFault_of_new fun hmem' => hmem (h.mpr hmem')]

/-- A flow is at fault in one way only. -/
theorem FlowFault.unique {e' : Failure} (h : FlowFault seen f e) (h' : FlowFault seen f e') :
    e = e' := by
  by_cases hmem : f.id ∈ seen
  · rw [(flowFault_of_mem hmem).mp h, (flowFault_of_mem hmem).mp h']
  · rw [flowFault_of_new hmem] at h h'
    exact Except.error.inj (h.symm.trans h')

/-! ### One step -/

theorem outcome_compileAfter_nil (seen : List Text) : (compileAfter seen []).outcome = .ok [] := rfl

/-- A flow at fault ends the pass. -/
theorem compileAfter_cons_of_fault (h : FlowFault seen ref.flow e) :
    (compileAfter seen (ref :: refs)).outcome = .error e := by
  by_cases hmem : ref.flow.id ∈ seen
  · rw [(flowFault_of_mem hmem).mp h]
    show (ite (ref.flow.id ∈ seen) _ _ : Run Animations).outcome = _
    rw [if_pos hmem]
    rfl
  · rw [compileAfter_cons hmem, Flow.animationEntry, (flowFault_of_new hmem).mp h]
    rfl

/-- Without a fault there the pass goes on behind the id of the flow. -/
theorem compileAfter_cons_of_not_fault (h : ∀ e, ¬ FlowFault seen ref.flow e) :
    (compileAfter seen (ref :: refs)).outcome = .error e ↔
      (compileAfter (ref.flow.id :: seen) refs).outcome = .error e := by
  have hnew : ref.flow.id ∉ seen := fun hmem => h _ (.duplicate hmem)
  rw [compileAfter_cons hnew, Flow.animationEntry]
  cases hanimation : ref.flow.animation with
  | error e' => exact absurd ((flowFault_of_new hnew).mpr hanimation) (h e')
  | ok animation => cases (compileAfter (ref.flow.id :: seen) refs).outcome <;> simp [Except.map]

/-- The pass returns if the id of the flow is new, its directives compile, and the pass over the
rest returns. -/
theorem compileAfter_cons_eq_ok {as : Animations} :
    (compileAfter seen (ref :: refs)).outcome = .ok as ↔ ref.flow.id ∉ seen ∧
      ∃ entry more, ref.flow.animationEntry = .ok entry ∧
        (compileAfter (ref.flow.id :: seen) refs).outcome = .ok more ∧
          entry.toList ++ more = as := by
  by_cases hmem : ref.flow.id ∈ seen
  · rw [compileAfter_cons_of_fault (.duplicate hmem)]
    simp [hmem]
  · rw [compileAfter_cons hmem]
    simp [hmem, bind_eq_ok]

/-! ### The whole pass -/

/-- The flow at `i` is at fault, behind `seen` and the flows before it. -/
def IsFault (seen : List Text) (refs : List FlowRef) (i : Nat) (e : Failure) : Prop :=
  ∃ h : i < refs.length, FlowFault (seen ++ (refs.take i).map (·.flow.id)) refs[i].flow e

/-- The flow at `i` is the first at fault. -/
def IsFirstFault (seen : List Text) (refs : List FlowRef) (i : Nat) (e : Failure) : Prop :=
  IsFault seen refs i e ∧ ∀ j < i, ∀ e', ¬ IsFault seen refs j e'

theorem isFault_zero : IsFault seen (ref :: refs) 0 e ↔ FlowFault seen ref.flow e := by
  simp [IsFault]

theorem isFault_succ {i : Nat} :
    IsFault seen (ref :: refs) (i + 1) e ↔ IsFault (ref.flow.id :: seen) refs i e := by
  simp only [IsFault, List.length_cons, Nat.add_lt_add_iff_right, List.take_succ_cons,
    List.map_cons, List.getElem_cons_succ]
  refine exists_congr fun h => FlowFault.congr ?_
  simp only [List.mem_append, List.mem_cons]
  tauto

/-- Past a flow without fault the first fault is looked for in the rest. -/
theorem exists_isFirstFault_cons (h : ∀ e, ¬ FlowFault seen ref.flow e) :
    (∃ i, IsFirstFault seen (ref :: refs) i e) ↔
      ∃ i, IsFirstFault (ref.flow.id :: seen) refs i e := by
  constructor
  · rintro ⟨_ | i, hi, hbefore⟩
    · exact absurd (isFault_zero.mp hi) (h e)
    · exact ⟨i, isFault_succ.mp hi, fun j hj e' hje =>
        hbefore (j + 1) (Nat.succ_lt_succ hj) e' (isFault_succ.mpr hje)⟩
  · rintro ⟨i, hi, hbefore⟩
    refine ⟨i + 1, isFault_succ.mpr hi, fun j hj e' hje => ?_⟩
    cases j with
    | zero => exact h e' (isFault_zero.mp hje)
    | succ j => exact hbefore j (Nat.lt_of_succ_lt_succ hj) e' (isFault_succ.mp hje)

/-- **The pass fails as the first flow at fault.** -/
theorem compileAfter_eq_error :
    (compileAfter seen refs).outcome = .error e ↔ ∃ i, IsFirstFault seen refs i e := by
  induction refs generalizing seen with
  | nil =>
    refine iff_of_false (by simp [outcome_compileAfter_nil]) ?_
    rintro ⟨i, ⟨h, _⟩, _⟩
    exact absurd h (Nat.not_lt_zero i)
  | cons ref refs ih =>
    by_cases hfault : ∃ e, FlowFault seen ref.flow e
    · -- The flow in front is the first at fault, and its fault is the only one it has.
      obtain ⟨e₀, h₀⟩ := hfault
      rw [compileAfter_cons_of_fault h₀, Except.error.injEq]
      constructor
      · rintro rfl
        exact ⟨0, isFault_zero.mpr h₀, fun j hj => absurd hj (Nat.not_lt_zero j)⟩
      · rintro ⟨_ | i, hi, hbefore⟩
        · exact h₀.unique (isFault_zero.mp hi)
        · exact absurd (isFault_zero.mpr h₀) (hbefore 0 (Nat.succ_pos i) e₀)
    · have hnone : ∀ e, ¬ FlowFault seen ref.flow e := fun e he => hfault ⟨e, he⟩
      rw [compileAfter_cons_of_not_fault hnone, ih, exists_isFirstFault_cons hnone]

/-- An entry for a flow: its id, and exactly the members that the flow declares. -/
structure IsEntry (f : Flow) (entry : Text × Animation) : Prop where
  id : entry.1 = f.id
  focus : CompiledTo (compileFocus · f.id) f.focus entry.2.focus
  highlight : CompiledTo (compileHighlight · f.id) f.highlight entry.2.highlight

theorem animationEntry_eq_ok_iff_isEntry {entry : Option (Text × Animation)} :
    f.animationEntry = .ok entry ↔ (f.hasDirective = false ∧ entry = none) ∨
      (f.hasDirective = true ∧ ∃ p, IsEntry f p ∧ entry = some p) := by
  rw [Flow.animationEntry, map_eq_ok]
  constructor
  · rintro ⟨_ | a, ha, rfl⟩
    · exact Or.inl ⟨animation_eq_none.mp ha, rfl⟩
    · obtain ⟨h, focus, highlight⟩ := animation_eq_some.mp ha
      exact Or.inr ⟨h, (f.id, a), ⟨rfl, focus, highlight⟩, rfl⟩
  · rintro (⟨h, rfl⟩ | ⟨h, ⟨_, a⟩, ⟨rfl, focus, highlight⟩, rfl⟩)
    · exact ⟨none, animation_eq_none.mpr h, rfl⟩
    · exact ⟨some a, animation_eq_some.mpr ⟨h, focus, highlight⟩, rfl⟩

/-- The animations are the entries of the flows that have a directive, in order. -/
def AreEntries (refs : List FlowRef) (as : Animations) : Prop :=
  List.Forall₂ IsEntry ((refs.map (·.flow)).filter Flow.hasDirective) as

theorem areEntries_cons {as : Animations} :
    AreEntries (ref :: refs) as ↔ ∃ entry more, ref.flow.animationEntry = .ok entry ∧
      AreEntries refs more ∧ entry.toList ++ more = as := by
  simp only [AreEntries, animationEntry_eq_ok_iff_isEntry, List.map_cons]
  cases h : ref.flow.hasDirective with
  | false =>
    rw [List.filter_cons_of_neg (by simp [h])]
    simp
  | true =>
    rw [List.filter_cons_of_pos h, List.forall₂_cons_left_iff]
    constructor
    · rintro ⟨entry, more, hentry, hmore, rfl⟩
      exact ⟨some entry, more, Or.inr ⟨rfl, entry, hentry, rfl⟩, hmore, rfl⟩
    · rintro ⟨_, more, ⟨hcontra, _⟩ | ⟨_, entry, hentry, rfl⟩, hmore, rfl⟩
      · cases hcontra
      · exact ⟨entry, more, hentry, hmore, rfl⟩

/-- The ids are new, and different from each other. -/
def AreNew (seen : List Text) (refs : List FlowRef) : Prop :=
  (∀ ref ∈ refs, ref.flow.id ∉ seen) ∧ (refs.map (·.flow.id)).Nodup

theorem areNew_cons :
    AreNew seen (ref :: refs) ↔ ref.flow.id ∉ seen ∧ AreNew (ref.flow.id :: seen) refs := by
  rw [AreNew, AreNew, List.forall_mem_cons, List.map_cons, List.nodup_cons]
  constructor
  · rintro ⟨⟨hnew, hrest⟩, hother, hnodup⟩
    refine ⟨hnew, fun r hr => ?_, hnodup⟩
    rw [List.mem_cons, not_or]
    exact ⟨fun h => hother (h ▸ List.mem_map_of_mem (f := (·.flow.id)) hr), hrest r hr⟩
  · rintro ⟨hnew, hrest, hnodup⟩
    refine ⟨⟨hnew, fun r hr hseen => hrest r hr (List.mem_cons_of_mem _ hseen)⟩, ?_, hnodup⟩
    intro hmem
    obtain ⟨r, hr, hid⟩ := List.mem_map.mp hmem
    exact hrest r hr (hid ▸ List.mem_cons_self)

/-- **The pass returns the entries of the flows**, if the ids are new. -/
theorem compileAfter_eq_ok {as : Animations} :
    (compileAfter seen refs).outcome = .ok as ↔ AreNew seen refs ∧ AreEntries refs as := by
  induction refs generalizing seen as with
  | nil => simp [outcome_compileAfter_nil, AreNew, AreEntries, eq_comm]
  | cons ref refs ih =>
    rw [compileAfter_cons_eq_ok, areNew_cons, areEntries_cons]
    simp only [ih]
    constructor
    · rintro ⟨hnew, entry, more, hentry, ⟨hrest, hmore⟩, has⟩
      exact ⟨⟨hnew, hrest⟩, entry, more, hentry, hmore, has⟩
    · rintro ⟨⟨hnew, hrest⟩, entry, more, hentry, hmore, has⟩
      exact ⟨hnew, entry, more, hentry, ⟨hrest, hmore⟩, has⟩

/-! ### All flows -/

/-- What the pass returns or fails with is that of its last step. -/
theorem outcome_compileAnimations_eq (refs : List FlowRef) :
    (compileAnimations refs).outcome = (compileAfter [] refs).outcome := by
  rw [compileAnimations, Run.outcome_bind]
  cases (compileAfter [] refs).outcome <;> rfl

/-- The directives of a flow compile, as far as there are any. -/
def Flow.Compiles (f : Flow) : Prop :=
  (∀ t ∈ f.focus, ∃ m, compileFocus t f.id = .ok m) ∧
    ∀ t ∈ f.highlight, ∃ m, compileHighlight t f.id = .ok m

theorem exists_isEntry : (∃ entry, IsEntry f entry) ↔ f.Compiles := by
  rw [Flow.Compiles, ← @exists_compiledTo_iff (compileFocus · f.id),
    ← @exists_compiledTo_iff (compileHighlight · f.id)]
  constructor
  · rintro ⟨entry, _, focus, highlight⟩
    exact ⟨⟨_, focus⟩, ⟨_, highlight⟩⟩
  · rintro ⟨⟨focus, hfocus⟩, ⟨highlight, hhighlight⟩⟩
    exact ⟨(f.id, ⟨focus, highlight⟩), rfl, hfocus, hhighlight⟩

/-- There are entries if all directives compile. -/
theorem exists_areEntries :
    (∃ as, AreEntries refs as) ↔ ∀ ref ∈ refs, ref.flow.Compiles := by
  simp only [AreEntries, exists_forall₂, exists_isEntry, List.mem_filter, List.mem_map]
  constructor
  · intro h ref href
    cases hset : ref.flow.hasDirective with
    | false =>
      obtain ⟨hfocus, hhighlight⟩ := hasDirective_eq_false.mp hset
      simp [Flow.Compiles, hfocus, hhighlight]
    | true => exact h ref.flow ⟨⟨ref, href, rfl⟩, hset⟩
  · rintro h _ ⟨⟨ref, href, rfl⟩, _⟩
    exact h ref href

theorem isFault_append {i : Nat} {tail : List FlowRef} (h : i < refs.length) :
    IsFault seen (refs ++ tail) i e ↔ IsFault seen refs i e := by
  have hlong : i < (refs ++ tail).length := by
    rw [List.length_append]
    omega
  simp only [IsFault, exists_prop_of_true h, exists_prop_of_true hlong,
    List.take_append_of_le_length (Nat.le_of_lt h), List.getElem_append_left h]

/-- What comes behind the first fault does not count. -/
theorem IsFirstFault.append {i : Nat} {tail : List FlowRef} (h : i < refs.length) :
    IsFirstFault seen (refs ++ tail) i e ↔ IsFirstFault seen refs i e := by
  rw [IsFirstFault, IsFirstFault, isFault_append h]
  refine and_congr_right fun _ => forall₂_congr fun j hj => forall_congr' fun e' => ?_
  rw [isFault_append (Nat.lt_trans hj h)]

/-- **The pass is decided by the first fault**: it succeeds exactly if the ids are different and all
directives compile, and then returns the entries of the flows; otherwise it fails as the first flow
at fault, whatever comes behind. -/
theorem compileAnimations_decided (refs : List FlowRef) :
    ((∃ as, (compileAnimations refs).outcome = .ok as) ↔
      (refs.map (·.flow.id)).Nodup ∧ ∀ ref ∈ refs, ref.flow.Compiles) ∧
    (∀ as, (compileAnimations refs).outcome = .ok as ↔
      (refs.map (·.flow.id)).Nodup ∧ AreEntries refs as) ∧
    (∀ e, (compileAnimations refs).outcome = .error e ↔ ∃ i, IsFirstFault [] refs i e) ∧
    ∀ e i, IsFirstFault [] refs i e → ∀ tail,
      (compileAnimations (refs.take (i + 1) ++ tail)).outcome = .error e := by
  have hok : ∀ as, (compileAnimations refs).outcome = .ok as ↔
      (refs.map (·.flow.id)).Nodup ∧ AreEntries refs as := by
    intro as
    rw [outcome_compileAnimations_eq, compileAfter_eq_ok, AreNew,
      and_iff_right fun _ _ => List.not_mem_nil]
  refine ⟨?_, hok, fun e => ?_, fun e i hfirst tail => ?_⟩
  · simp only [hok, exists_and_left, exists_areEntries]
  · rw [outcome_compileAnimations_eq, compileAfter_eq_error]
  · obtain ⟨hlength, _⟩ := hfirst.1
    have htake : i < (refs.take (i + 1)).length := by
      rw [List.length_take]
      omega
    rw [outcome_compileAnimations_eq, compileAfter_eq_error]
    -- The flows behind the first fault are taken off, and others are put in their place.
    refine ⟨i, (IsFirstFault.append htake).mpr ?_⟩
    rw [← List.take_append_drop (i + 1) refs] at hfirst
    exact (IsFirstFault.append htake).mp hfirst

/-- Two flows with one id, of which the second has a focus that is no focus. -/
def repeatedFlows : List FlowRef :=
  let flow (focus : Option Text) : Flow := ⟨"a", "x", .one, none, focus, none⟩
  [⟨⟨0, none, 0⟩, "a", flow none⟩, ⟨⟨0, none, 1⟩, "a", flow (some "nothing")⟩]

theorem compileAnimations_decided_repeatedFlows :
    IsFirstFault [] repeatedFlows 1 (.reported (.duplicateId "a")) ∧
      ∀ tail, (compileAnimations (repeatedFlows.take 2 ++ tail)).outcome =
        .error (.reported (.duplicateId "a")) := by
  have hfirst : IsFirstFault [] repeatedFlows 1 (.reported (.duplicateId "a")) := by
    refine ⟨⟨by decide, .duplicate (by decide)⟩, fun j hj e' hfault => ?_⟩
    obtain rfl : j = 0 := by omega
    rw [repeatedFlows, isFault_zero, flowFault_of_new List.not_mem_nil] at hfault
    cases hfault
  exact ⟨hfirst, (compileAnimations_decided repeatedFlows).2.2.2 _ 1 hfirst⟩

end SvgDeck
