/-
What a document is known to satisfy.

The checks of the schema are put together from a few combinators.  Each has a lemma that
says when it accepts (`seq_eq_valid`, `list_eq_valid`, `required_eq_valid` and so on), and
following these through the schema gives `isValid_of_check`: every document that the
schema accepts is valid.  Its ids are made of letters, digits, hyphens, points and
underscores, so no id can lead out of the folder of the pictures.
-/
import SvgDeck.Schema.Document
import SvgDeck.Proofs.FirstFault
import SvgDeck.Proofs.Outline

namespace SvgDeck

open Checked

/-! ### Accepting checks -/

namespace Checked

variable {α β : Type}

theorem map_eq_valid {f : α → β} {c : Checked α} {b : β} :
    f <$> c = .valid b ↔ ∃ a, c = .valid a ∧ f a = b := by
  show c.map f = .valid b ↔ _
  cases c with
  | valid a => simp [map]
  | invalid first more => simp [map]

/-- Checks side by side accept if both do. -/
theorem seq_eq_valid {f : Checked (α → β)} {c : Checked α} {b : β} :
    f <*> c = .valid b ↔ ∃ g a, f = .valid g ∧ c = .valid a ∧ g a = b := by
  show f.seq c = .valid b ↔ _
  cases f with
  | valid g => cases c <;> simp [seq]
  | invalid first more => simp [seq]

theorem under_eq_valid {step : Step} {c : Checked α} {a : α} :
    c.under step = .valid a ↔ c = .valid a := by
  cases c with
  | valid a' => simp [under]
  | invalid first more => simp [under]

theorem withFindings_eq_valid {c : Checked α} {fs : List Finding} {a : α} :
    c.withFindings fs = .valid a ↔ fs = [] ∧ c = .valid a := by
  cases fs with
  | nil => simp [withFindings]
  | cons f fs => cases c <;> simp [withFindings]

theorem bind_eq_valid {c : Checked α} {next : α → Checked β} {b : β} :
    c.bind next = .valid b ↔ ∃ a, c = .valid a ∧ next a = .valid b := by
  cases c with
  | valid a => simp [bind]
  | invalid first more => simp [bind]

theorem mapping_eq_valid {model : Text} {check : Entries → Checked α} {v : Value} {a : α} :
    mapping model check v = .valid a ↔
      ∃ entries, v = .mapping entries ∧ check entries = .valid a := by
  cases v <;> simp [mapping, fail]

/-- A list is accepted item by item. -/
theorem items_eq_valid {check : Value → Checked α} {n : Nat} {vs : List Value} {as : List α} :
    items check n vs = .valid as ↔ List.Forall₂ (fun v a => check v = .valid a) vs as := by
  induction vs generalizing n as with
  | nil => simp [items, eq_comm]
  | cons v vs ih =>
    rw [items, List.forall₂_cons_left_iff]
    show List.cons <$> (check v).under (.index n) <*> items check (n + 1) vs = .valid as ↔ _
    simp only [seq_eq_valid, map_eq_valid, under_eq_valid, ih]
    constructor
    · rintro ⟨_, bs, ⟨a, ha, rfl⟩, hbs, rfl⟩
      exact ⟨a, bs, ha, hbs, rfl⟩
    · rintro ⟨a, bs, ha, hbs, rfl⟩
      exact ⟨_, bs, ⟨a, ha, rfl⟩, hbs, rfl⟩

theorem list_eq_valid {check : Value → Checked α} {v : Value} {as : List α} :
    list check v = .valid as → ∀ a ∈ as, ∃ u, check u = .valid a := by
  have hitems : ∀ vs, items check 0 vs = .valid as → ∀ a ∈ as, ∃ u, check u = .valid a := by
    intro vs h a ha
    obtain ⟨u, _, hu⟩ := exists_of_forall₂ (items_eq_valid.mp h) ha
    exact ⟨u, hu⟩
  cases v with
  | list vs => exact hitems vs
  | set vs => exact hitems vs
  | _ => intro h; cases h

section Field

variable {name key : Text} {others : List Text} {check : Value → Checked α} {entries : Entries}
  {v : Value}

theorem required_of_find? (h : find? (name :: others) entries = some (key, v)) :
    required name others check entries = (check v).under (.key key) := by
  rw [required, h]

theorem required_of_none (h : find? (name :: others) entries = none) :
    required name others check entries = (fail .missing).under (.key name) := by
  rw [required, h]

theorem optional_of_find? (h : find? (name :: others) entries = some (key, v)) (hv : v ≠ .null) :
    optional name others check entries = some <$> (check v).under (.key key) := by
  rw [optional, h]
  cases v <;> first | rfl | exact absurd rfl hv

theorem optional_of_null (h : find? (name :: others) entries = some (key, .null)) :
    optional name others check entries = .valid none := by
  rw [optional, h]

theorem optional_of_none (h : find? (name :: others) entries = none) :
    optional name others check entries = .valid none := by
  rw [optional, h]

theorem required_eq_valid {a : α} (h : required name others check entries = .valid a) :
    ∃ v, check v = .valid a := by
  cases hf : find? (name :: others) entries with
  | none =>
    rw [required_of_none hf] at h
    cases h
  | some found =>
    rw [required_of_find? hf] at h
    exact ⟨found.2, under_eq_valid.mp h⟩

theorem optional_eq_valid {a : α} (h : optional name others check entries = .valid (some a)) :
    ∃ v, check v = .valid a := by
  cases hf : find? (name :: others) entries with
  | none =>
    rw [optional_of_none hf] at h
    cases h
  | some found =>
    obtain ⟨key, v⟩ := found
    by_cases hv : v = .null
    · subst hv
      rw [optional_of_null hf] at h
      cases h
    · rw [optional_of_find? hf hv] at h
      obtain ⟨b, hb, hab⟩ := map_eq_valid.mp h
      rw [← Option.some.inj hab]
      exact ⟨v, under_eq_valid.mp hb⟩

end Field

theorem matching_eq_valid {p : Pattern} {v : Value} {t : Text} (h : matching p v = .valid t) :
    p.accepts t = true := by
  rw [matching, bind_eq_valid] at h
  obtain ⟨t', _, h⟩ := h
  by_cases ha : p.accepts t' = true
  · rw [if_pos ha] at h
    cases h
    exact ha
  · rw [if_neg ha] at h
    cases h

theorem optional_matching {name : Text} {others : List Text} {p : Pattern} {entries : Entries}
    {o : Option Text} (h : optional name others (matching p) entries = .valid o) :
    ∀ t ∈ o, p.accepts t = true := by
  rintro t rfl
  obtain ⟨_, hv⟩ := optional_eq_valid h
  exact matching_eq_valid hv

end Checked

/-! ### Valid documents -/

/-- The settings have the forms that the schema asks for. -/
structure Settings.IsValid (s : Settings) : Prop where
  minSize : isFontSize s.minSize = true
  maxSize : isFontSize s.maxSize = true
  colors : ∀ o ∈ [s.svgPaneBackground, s.textPaneBackground], ∀ t ∈ o, isColor t = true
  borders : ∀ o ∈ [s.topBorder, s.bottomBorder, s.leftBorder, s.rightBorder], ∀ t ∈ o,
    isBorder t = true

/-- The settings and the ids have the forms that the schema asks for. -/
structure Document.IsValid (d : Document) : Prop where
  settings : d.settings.IsValid
  id : ∀ f ∈ d.flows, isFlowId f.id = true

theorem Settings.isValid_of_check {entries : Entries} {s : Settings}
    (h : Settings.check entries = .valid s) : s.IsValid := by
  -- The last field of the settings is checked outermost.
  obtain ⟨_, landscape, h, _, e9⟩ := seq_eq_valid.mp h
  obtain ⟨_, flip, h, _, e8⟩ := seq_eq_valid.mp h
  obtain ⟨_, rightBorder, h, hright, e7⟩ := seq_eq_valid.mp h
  obtain ⟨_, leftBorder, h, hleft, e6⟩ := seq_eq_valid.mp h
  obtain ⟨_, bottomBorder, h, hbottom, e5⟩ := seq_eq_valid.mp h
  obtain ⟨_, topBorder, h, htop, e4⟩ := seq_eq_valid.mp h
  obtain ⟨_, textPane, h, htext, e3⟩ := seq_eq_valid.mp h
  obtain ⟨_, svgPane, h, hsvg, e2⟩ := seq_eq_valid.mp h
  obtain ⟨_, maxSize, h, hmax, e1⟩ := seq_eq_valid.mp h
  obtain ⟨minSize, hmin, rfl⟩ := map_eq_valid.mp h
  subst e1 e2 e3 e4 e5 e6 e7 e8 e9
  obtain ⟨_, hmin⟩ := required_eq_valid hmin
  obtain ⟨_, hmax⟩ := required_eq_valid hmax
  constructor
  case minSize => exact matching_eq_valid hmin
  case maxSize => exact matching_eq_valid hmax
  case colors =>
    simp only [List.forall_mem_cons]
    exact ⟨optional_matching hsvg, optional_matching htext, by simp⟩
  case borders =>
    simp only [List.forall_mem_cons]
    exact ⟨optional_matching htop, optional_matching hbottom, optional_matching hleft,
      optional_matching hright, by simp⟩

theorem Flow.isFlowId_of_check {v : Value} {f : Flow} (h : Flow.check v = .valid f) :
    isFlowId f.id = true := by
  obtain ⟨entries, rfl, h⟩ := mapping_eq_valid.mp h
  obtain ⟨_, highlight, h, _, e5⟩ := seq_eq_valid.mp h
  obtain ⟨_, focus, h, _, e4⟩ := seq_eq_valid.mp h
  obtain ⟨_, centered, h, _, e3⟩ := seq_eq_valid.mp h
  obtain ⟨_, seconds, h, _, e2⟩ := seq_eq_valid.mp h
  obtain ⟨_, html, h, _, e1⟩ := seq_eq_valid.mp h
  obtain ⟨id, hid, rfl⟩ := map_eq_valid.mp h
  subst e1 e2 e3 e4 e5
  obtain ⟨_, hid⟩ := required_eq_valid hid
  exact matching_eq_valid hid

theorem isFlowId_of_checkFlows {entries : Entries} {flows : List Flow}
    (h : checkFlows entries = .valid flows) : ∀ f ∈ flows, isFlowId f.id = true := by
  intro f hf
  obtain ⟨_, hlist⟩ := required_eq_valid h
  obtain ⟨_, hv⟩ := list_eq_valid hlist f hf
  exact Flow.isFlowId_of_check hv

/-- A subsection is accepted if its flows are and it has no other key. -/
theorem Subsection.check_eq_valid {entries : Entries} {sub : Subsection} :
    Subsection.check (.mapping entries) = .valid sub ↔
      (entries.any fun e => isBrokenKey e.1) = false ∧
        (entries.filterMap fun e => unknownKey? e.1) = [] ∧
          Subsection.mk <$> checkFlows entries = .valid sub := by
  rw [Subsection.check, mapping]
  cases entries.any fun e => isBrokenKey e.1 with
  | true => simp [fail]
  | false => exact withFindings_eq_valid.trans (and_iff_right rfl).symm

theorem Subsection.isFlowId_of_check {v : Value} {sub : Subsection}
    (h : Subsection.check v = .valid sub) : ∀ f ∈ sub.flows, isFlowId f.id = true := by
  obtain ⟨entries, rfl, -⟩ := mapping_eq_valid.mp h
  obtain ⟨_, _, h⟩ := Subsection.check_eq_valid.mp h
  obtain ⟨flows, hflows, rfl⟩ := map_eq_valid.mp h
  exact isFlowId_of_checkFlows hflows

theorem Section.isFlowId_of_check {v : Value} {sec : Section} (h : Section.check v = .valid sec) :
    ∀ f ∈ sec.flowList, isFlowId f.id = true := by
  obtain ⟨entries, rfl, h⟩ := mapping_eq_valid.mp h
  obtain ⟨_, subs, hg, hsubs, rfl⟩ := seq_eq_valid.mp h
  obtain ⟨flows, hflows, rfl⟩ := map_eq_valid.mp hg
  intro f hf
  rcases List.mem_append.mp hf with hf | hf
  · exact isFlowId_of_checkFlows hflows f hf
  · cases subs with
    | none => cases hf
    | some subs =>
      obtain ⟨sub, hsub, hf⟩ := List.mem_flatMap.mp hf
      obtain ⟨_, hlist⟩ := optional_eq_valid hsubs
      obtain ⟨_, hv⟩ := list_eq_valid hlist sub hsub
      exact Subsection.isFlowId_of_check hv f hf

/-- **What the schema accepts is valid.** -/
theorem isValid_of_check {v : Value} {d : Document} (h : Document.check v = .valid d) :
    d.IsValid := by
  obtain ⟨entries, rfl, h⟩ := mapping_eq_valid.mp h
  obtain ⟨_, sections, hg, hsections, rfl⟩ := seq_eq_valid.mp h
  obtain ⟨settings, hsettings, rfl⟩ := map_eq_valid.mp hg
  refine ⟨Settings.isValid_of_check hsettings, fun f hf => ?_⟩
  obtain ⟨sec, hsec, hf⟩ := List.mem_flatMap.mp hf
  obtain ⟨_, hlist⟩ := required_eq_valid hsections
  obtain ⟨_, hv⟩ := list_eq_valid hlist sec hsec
  exact Section.isFlowId_of_check hv f hf

end SvgDeck
