/-
Going through a list up to the first fault.

Most of the library goes through a list of flows, pictures or paths and stops at the
first that fails.  `IsFirst p l a` says that `a` is the first member of `l` with the
property `p`, and

* `mapM_eq_ok` — a pass that returns has an answer for every member, in order;
* `mapM_eq_error` — a pass fails as the first member that fails, whatever comes behind;
* `exists_mapM_eq_ok` — a pass returns if no member fails.

The last section opens operations that are put in sequence: what a sequence returns,
and where it can fail.
-/
import SvgDeck.Run
import Mathlib.Data.List.Forall2

namespace SvgDeck

variable {α β ε : Type}

/-! ### First members -/

/-- `a` is the first member of `l` that has the property `p`. -/
def IsFirst (p : α → Prop) (l : List α) (a : α) : Prop :=
  ∃ before after, l = before ++ a :: after ∧ p a ∧ ∀ b ∈ before, ¬ p b

namespace IsFirst

variable {p q : α → Prop} {l : List α} {a b : α}

theorem mem (h : IsFirst p l a) : a ∈ l := by
  obtain ⟨before, after, rfl, _, _⟩ := h
  simp

theorem holds (h : IsFirst p l a) : p a := by
  obtain ⟨_, _, _, ha, _⟩ := h
  exact ha

/-- Only the members of the list matter. -/
theorem congr (h : IsFirst p l a) (hpq : ∀ x ∈ l, (p x ↔ q x)) : IsFirst q l a := by
  obtain ⟨before, after, rfl, ha, hb⟩ := h
  refine ⟨before, after, rfl, (hpq a (by simp)).mp ha, fun x hx hq => ?_⟩
  exact hb x hx ((hpq x (by simp [hx])).mpr hq)

theorem map {g : β → α} {l : List β} {b : β} (h : IsFirst (fun x => p (g x)) l b) :
    IsFirst p (l.map g) (g b) := by
  obtain ⟨before, after, rfl, hb, hbefore⟩ := h
  refine ⟨before.map g, after.map g, by rw [List.map_append, List.map_cons], hb, ?_⟩
  exact List.forall_mem_map.mpr hbefore

theorem cons_of_not (h : IsFirst p l a) (hx : ¬ p b) : IsFirst p (b :: l) a := by
  obtain ⟨before, after, rfl, ha, hb⟩ := h
  refine ⟨b :: before, after, rfl, ha, fun x hm => ?_⟩
  rcases List.mem_cons.mp hm with rfl | hm
  · exact hx
  · exact hb x hm

theorem cons_self (hx : p b) : IsFirst p (b :: l) b :=
  ⟨[], l, rfl, hx, fun _ h => absurd h List.not_mem_nil⟩

/-- Past a member without the property the first one is looked for in the rest. -/
theorem of_cons (h : IsFirst p (b :: l) a) (hx : ¬ p b) : IsFirst p l a := by
  obtain ⟨before, after, hl, ha, hb⟩ := h
  rcases before with _ | ⟨c, before⟩
  · obtain ⟨rfl, rfl⟩ := List.cons.inj hl
    exact absurd ha hx
  · obtain ⟨rfl, rfl⟩ := List.cons.inj hl
    exact ⟨before, after, rfl, ha, fun x hm => hb x (List.mem_cons_of_mem _ hm)⟩

/-- A member with the property at the front is the first one. -/
theorem eq_of_cons (h : IsFirst p (b :: l) a) (hx : p b) : a = b := by
  obtain ⟨before, after, hl, _, hb⟩ := h
  rcases before with _ | ⟨c, before⟩
  · exact (List.cons.inj hl).1.symm
  · obtain ⟨rfl, _⟩ := List.cons.inj hl
    exact absurd hx (hb b List.mem_cons_self)

theorem unique (ha : IsFirst p l a) (hb : IsFirst p l b) : a = b := by
  induction l with
  | nil => exact absurd ha.mem List.not_mem_nil
  | cons x l ih =>
    by_cases hx : p x
    · rw [ha.eq_of_cons hx, hb.eq_of_cons hx]
    · exact ih (ha.of_cons hx) (hb.of_cons hx)

end IsFirst

theorem exists_isFirst {p : α → Prop} {l : List α} (h : ∃ a ∈ l, p a) : ∃ a, IsFirst p l a := by
  induction l with
  | nil =>
    obtain ⟨a, ha, _⟩ := h
    exact absurd ha List.not_mem_nil
  | cons x l ih =>
    by_cases hx : p x
    · exact ⟨x, .cons_self hx⟩
    · obtain ⟨a, ha, hp⟩ := h
      rcases List.mem_cons.mp ha with rfl | ha
      · exact absurd hp hx
      · obtain ⟨b, hb⟩ := ih ⟨a, ha, hp⟩
        exact ⟨b, hb.cons_of_not hx⟩

/-! ### Operations in sequence -/

/-- Whether an operation fails. -/
def Fails (x : Except ε α) : Prop := ∃ e, x = .error e

@[simp] theorem not_fails_ok (a : α) : ¬ Fails (.ok a : Except ε α) := by
  rintro ⟨e, h⟩
  cases h

@[simp] theorem fails_error (e : ε) : Fails (.error e : Except ε α) := ⟨e, rfl⟩

theorem not_fails {x : Except ε α} : ¬ Fails x ↔ ∃ a, x = .ok a := by
  cases x with
  | ok a => exact ⟨fun _ => ⟨a, rfl⟩, fun _ => not_fails_ok a⟩
  | error e =>
    constructor
    · exact fun h => absurd (fails_error e) h
    · rintro ⟨_, h⟩
      cases h

theorem toOption_eq_some {x : Except ε α} {a : α} : x.toOption = some a ↔ x = .ok a := by
  cases x with
  | ok b => simp [Except.toOption]
  | error e => simp [Except.toOption]

@[simp] theorem ok_bind (a : α) (next : α → Except ε β) : (Except.ok a >>= next) = next a := rfl

@[simp] theorem error_bind (e : ε) (next : α → Except ε β) :
    ((Except.error e : Except ε α) >>= next) = .error e := rfl

@[simp] theorem pure_eq_ok (a : α) : (pure a : Except ε α) = .ok a := rfl

theorem bind_eq_ok {x : Except ε α} {next : α → Except ε β} {b : β} :
    (x >>= next) = .ok b ↔ ∃ a, x = .ok a ∧ next a = .ok b := by
  cases x with
  | ok a => simp
  | error e => simp

theorem bind_eq_error {x : Except ε α} {next : α → Except ε β} {e : ε} :
    (x >>= next) = .error e ↔ x = .error e ∨ ∃ a, x = .ok a ∧ next a = .error e := by
  cases x with
  | ok a => simp
  | error e' => simp

/-! ### Passes over a list -/

theorem mapM_eq_ok {f : α → Except ε β} : ∀ {l : List α} {bs : List β},
    l.mapM f = .ok bs ↔ List.Forall₂ (fun a b => f a = .ok b) l bs := by
  intro l
  induction l with
  | nil =>
    intro bs
    simp [eq_comm]
  | cons a l ih =>
    intro bs
    rw [List.mapM_cons, List.forall₂_cons_left_iff, bind_eq_ok]
    constructor
    · rintro ⟨b, ha, hrest⟩
      obtain ⟨cs, hl, hbs⟩ := bind_eq_ok.mp hrest
      exact ⟨b, cs, ha, ih.mp hl, (Except.ok.inj hbs).symm⟩
    · rintro ⟨b, cs, ha, hl, rfl⟩
      exact ⟨b, ha, by rw [ih.mpr hl]; rfl⟩

theorem mapM_eq_error {f : α → Except ε β} : ∀ {l : List α} {e : ε},
    l.mapM f = .error e ↔ ∃ a, IsFirst (fun x => Fails (f x)) l a ∧ f a = .error e := by
  intro l
  induction l with
  | nil =>
    intro e
    rw [List.mapM_nil, pure_eq_ok]
    constructor
    · intro h
      cases h
    · rintro ⟨a, ha, _⟩
      exact absurd ha.mem List.not_mem_nil
  | cons x l ih =>
    intro e
    rw [List.mapM_cons]
    -- The front decides if it fails; otherwise the first failure is that of the rest.
    cases hx : f x with
    | error e' =>
      have hfail : Fails (f x) := by simp [hx]
      rw [error_bind]
      constructor
      · intro h
        exact ⟨x, .cons_self hfail, by rw [hx, Except.error.inj h]⟩
      · rintro ⟨a, ha, he⟩
        rw [ha.eq_of_cons hfail, hx] at he
        rw [Except.error.inj he]
    | ok b =>
      have hok : ¬ Fails (f x) := by simp [hx]
      rw [ok_bind, bind_eq_error]
      constructor
      · rintro (h | ⟨bs, _, h⟩)
        · obtain ⟨a, ha, he⟩ := ih.mp h
          exact ⟨a, ha.cons_of_not hok, he⟩
        · cases h
      · rintro ⟨a, ha, he⟩
        exact Or.inl (ih.mpr ⟨a, ha.of_cons hok, he⟩)

theorem mapM_congr {f g : α → Except ε β} {l : List α} (h : ∀ a ∈ l, f a = g a) :
    l.mapM f = l.mapM g := by
  induction l with
  | nil => rfl
  | cons a l ih =>
    obtain ⟨ha, hl⟩ := List.forall_mem_cons.mp h
    rw [List.mapM_cons, List.mapM_cons, ha, ih hl]

/-- A pass returns if no member fails. -/
theorem exists_mapM_eq_ok {f : α → Except ε β} {l : List α} (h : ∀ a ∈ l, ¬ Fails (f a)) :
    ∃ bs, l.mapM f = .ok bs := by
  refine not_fails.mp ?_
  rintro ⟨e, he⟩
  obtain ⟨a, ha, _⟩ := mapM_eq_error.mp he
  exact h a ha.mem ha.holds

/-- What stands on the right belongs to something on the left. -/
theorem exists_of_forall₂ {R : α → β → Prop} {l : List α} {u : List β} {b : β}
    (h : List.Forall₂ R l u) (hb : b ∈ u) : ∃ a ∈ l, R a b := by
  induction h with
  | nil => cases hb
  | @cons a c l u hac _ ih =>
    rcases List.mem_cons.mp hb with rfl | hb
    · exact ⟨a, List.mem_cons_self, hac⟩
    · obtain ⟨x, hx, hxb⟩ := ih hb
      exact ⟨x, List.mem_cons_of_mem _ hx, hxb⟩

/-- Every member has a partner if all members do. -/
theorem exists_forall₂ {R : α → β → Prop} {l : List α} :
    (∃ u, List.Forall₂ R l u) ↔ ∀ a ∈ l, ∃ b, R a b := by
  induction l with
  | nil => simp
  | cons a l ih =>
    rw [List.forall_mem_cons, ← ih]
    constructor
    · rintro ⟨_, _ | ⟨hab, hlu⟩⟩
      exact ⟨⟨_, hab⟩, ⟨_, hlu⟩⟩
    · rintro ⟨⟨b, hab⟩, ⟨u, hlu⟩⟩
      exact ⟨b :: u, .cons hab hlu⟩

/-- A pass that keeps what it is given for some members, and fails at the members with `p`. -/
theorem mapM_filterMap_eq_ok {f : α → Except ε (Option β)} {p : α → Prop} {g : α → Option β}
    (hf : ∀ a b, f a = .ok b ↔ ¬ p a ∧ g a = b) {l : List α} {kept : List β} :
    (∃ found, l.mapM f = .ok found ∧ found.filterMap id = kept) ↔
      (∀ a ∈ l, ¬ p a) ∧ kept = l.filterMap g := by
  simp only [mapM_eq_ok, hf, List.forall₂_and_left]
  have hmap : ∀ found, List.Forall₂ (fun a b => g a = b) l found ↔ l.map g = found := by
    intro found
    rw [← List.forall₂_map_left_iff, List.forall₂_eq_eq_eq]
  simp only [hmap]
  constructor
  · rintro ⟨_, ⟨hp, rfl⟩, rfl⟩
    exact ⟨hp, by rw [List.filterMap_map]; rfl⟩
  · rintro ⟨hp, rfl⟩
    exact ⟨_, ⟨hp, rfl⟩, by rw [List.filterMap_map]; rfl⟩

/-! ### Runs -/

/-- Whether a failure is reported to the author. -/
def Failure.isReported : Failure → Bool
  | .reported _ => true
  | _ => false

theorem Failure.isReported_eq_true {f : Failure} :
    f.isReported = true ↔ ∃ cause, f = .reported cause := by
  cases f <;> simp [isReported]

namespace Run

@[simp] theorem outcome_pure (a : α) : (pure a : Run α).outcome = .ok a := rfl

@[simp] theorem outcome_ofExcept (x : Except Failure α) : (ofExcept x).outcome = x := rfl

@[simp] theorem outcome_fail (f : Failure) : (fail f : Run α).outcome = .error f := rfl

@[simp] theorem outcome_report (c : Cause) :
    (report c : Run α).outcome = .error (.reported c) := rfl

@[simp] theorem outcome_write (level : Level) (t : Text) : (write level t).outcome = .ok () := rfl

/-- The log has no part in how a sequence ends. -/
@[simp] theorem outcome_bind (r : Run α) (next : α → Run β) :
    (r >>= next).outcome = r.outcome >>= fun a => (next a).outcome := by
  show (r.bind next).outcome = _
  cases h : r.outcome with
  | ok a => simp [bind, h]
  | error f => simp [bind, h]

end Run

end SvgDeck
