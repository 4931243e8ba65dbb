/-
Only recognised content counts.

Document data may be written in several ways: the keys of an object in any order, a setting under
either of its names, the sections under the name from before there were sections, and keys that
nothing reads beside the others, except in subsections.  `Respelled` says which data is another
way of writing what is there.  Whatever the schema reads data as, it reads any other way of
writing it as the same (`keeps_of_respelled`), so what is compiled is the same too.

* `check_of_respelled` — the same document, the same compiled slideshow, and its payload with
  the keys of documents in the order of the schema.
-/
import SvgDeck.Proofs.Fields

namespace SvgDeck

namespace Schema

open Checked

/-! ### Ways of writing the same data -/

/-- What the items of a list should be. -/
def Slot.item : Slot → Slot
  | .list m => .object m
  | _ => .any

/-- What the value under a key should be. -/
def Slot.inside (s : Slot) (key : Text) : Slot :=
  match s with
  | .object m => ((m.fields.find? (·.names.contains key)).map Field.slot).getD .any
  | _ => .any

/-- The members of an object that are not given for the field. -/
def Field.without (f : Field) (members : List (Text × Json)) : List (Text × Json) :=
  members.filter fun e => !f.names.contains e.1

/-- `b` is another way of writing what `a` says as data of the kind `s`. -/
inductive Respelled : Slot → Json → Json → Prop
  | refl (s : Slot) (j : Json) : Respelled s j j
  | trans {s : Slot} {a b c : Json} : Respelled s a b → Respelled s b c → Respelled s a c
  | item {s : Slot} (front back : List Json) {a b : Json} :
      Respelled s.item a b → Respelled s (.array (front ++ a :: back)) (.array (front ++ b :: back))
  | value {s : Slot} (front back : List (Text × Json)) (key : Text) {a b : Json} :
      Respelled (s.inside key) a b →
        Respelled s (.object (front ++ (key, a) :: back)) (.object (front ++ (key, b) :: back))
  /-- The keys of an object come in any order. -/
  | order {s : Slot} {members members' : List (Text × Json)} :
      (members.map Prod.fst).Nodup → members.Perm members' →
        Respelled s (.object members) (.object members')
  /-- A key that is no name of a field is added, except to a subsection. -/
  | unknown {m : Model} (front back : List (Text × Json)) {key : Text} {j : Json} :
      m ≠ .subsection → ¬ m.Knows key →
        Respelled (.object m) (.object (front ++ back)) (.object (front ++ (key, j) :: back))
  /-- The value in use for a field is given under another of its names, and under that alone. -/
  | rename {m : Model} {f : Field} (front back : List (Text × Json)) {key name : Text} {j : Json} :
      f ∈ m.fields → name ∈ f.names → f.inUse? (front ++ (key, j) :: back) = some (key, j) →
        Respelled (.object m) (.object (front ++ (key, j) :: back))
          (.object (f.without front ++ (name, j) :: f.without back))

/-- Whatever `a` is read as, `b` is read as the same. -/
structure Slot.Keeps (s : Slot) (a b : Json) : Prop where
  read : (s.check (.ofJson a)).Within (s.check (.ofJson b))
  null : a = .null ↔ b = .null

section Fields

variable {m : Model} {f g : Field} {key name : Text} {j a b : Json}
  {members members' front back : List (Text × Json)}

/-! ### Members of respelled objects -/

theorem inside_of_mem (hf : f ∈ m.fields) (hkey : key ∈ f.names) :
    (Slot.object m).inside key = f.slot := by
  obtain ⟨g, hg⟩ : ∃ g, m.fields.find? (·.names.contains key) = some g := by
    rw [← Option.isSome_iff_exists, List.find?_isSome]
    exact ⟨f, hf, by simpa using hkey⟩
  have hkg : key ∈ g.names := by simpa using List.find?_some hg
  rw [Slot.inside, hg, Model.eq_of_mem_names hf (List.mem_of_find?_eq_some hg) hkey hkg]
  rfl

theorem lookup_append_cons :
    (front ++ (key, j) :: back).lookup name =
      if name = key then some ((front.lookup name).getD j) else (front ++ back).lookup name := by
  rw [List.lookup_append, List.lookup_append]
  by_cases h : name = key
  · subst h
    rw [if_pos rfl, List.lookup_cons_self]
    cases front.lookup name <;> rfl
  · rw [if_neg h, List.lookup_cons, beq_eq_false_iff_ne.mpr h]

theorem lookup_eq_some_iff (hkeys : (members.map Prod.fst).Nodup) :
    members.lookup name = some j ↔ (name, j) ∈ members := by
  induction members with
  | nil => simp
  | cons e members ih =>
    obtain ⟨key, a⟩ := e
    rw [List.map_cons, List.nodup_cons] at hkeys
    rw [List.lookup_cons, List.mem_cons, Prod.mk.injEq]
    by_cases h : name = key
    · subst h
      have hmem : (name, j) ∉ members := fun hmem =>
        hkeys.1 (List.mem_map.mpr ⟨_, hmem, rfl⟩)
      simp [hmem, eq_comm]
    · simp [beq_eq_false_iff_ne.mpr h, h, ih hkeys.2]

theorem lookup_of_perm (hkeys : (members.map Prod.fst).Nodup) (h : members.Perm members') :
    members.lookup name = members'.lookup name := by
  have hkeys' : (members'.map Prod.fst).Nodup := (h.map _).nodup_iff.mp hkeys
  refine Option.ext fun j => ?_
  rw [lookup_eq_some_iff hkeys, lookup_eq_some_iff hkeys', h.mem_iff]

theorem lookup_without_of_mem (hname : name ∈ f.names) :
    (f.without members).lookup name = none := by
  rw [List.lookup_eq_none_iff]
  intro e he
  have hout : e.1 ∉ f.names := by simpa using (List.mem_filter.mp he).2
  exact bne_iff_ne.mpr fun h => hout (h ▸ hname)

theorem lookup_without (hname : name ∉ f.names) :
    (f.without members).lookup name = members.lookup name := by
  induction members with
  | nil => rfl
  | cons e members ih =>
    obtain ⟨key, a⟩ := e
    by_cases hkey : key ∈ f.names
    · have hne : name ≠ key := fun h => hname (h ▸ hkey)
      rw [Field.without, List.filter_cons_of_neg (by simpa using hkey), ← Field.without, ih,
        List.lookup_cons, beq_eq_false_iff_ne.mpr hne]
    · rw [Field.without, List.filter_cons_of_pos (by simpa using hkey), ← Field.without,
        List.lookup_cons, List.lookup_cons, ih]

/-! ### Fields of respelled objects -/

/-- Two objects agree on a field if they agree on each of its names. -/
theorem Field.rel_inUse? {R : Json → Json → Prop} (h : ∀ name ∈ f.names,
    Option.Rel R (members.lookup name) (members'.lookup name)) :
    Option.Rel (fun x y => R x.2 y.2) (f.inUse? members) (f.inUse? members') := by
  rw [Field.inUse?, Field.inUse?]
  generalize f.names = names at h ⊢
  induction names with
  | nil => exact .none
  | cons name names ih =>
    obtain ⟨hname, hnames⟩ := List.forall_mem_cons.mp h
    rw [List.findSome?_cons, List.findSome?_cons]
    generalize members.lookup name = o, members'.lookup name = o' at hname ⊢
    cases hname with
    | some hab => exact .some hab
    | none => exact ih hnames

/-- The name that alone is there is the one in use. -/
theorem Field.inUse?_of_only (hname : name ∈ f.names) (hj : members.lookup name = some j)
    (honly : ∀ n ∈ f.names, n ≠ name → members.lookup n = none) :
    f.inUse? members = some (name, j) := by
  rw [Field.inUse?]
  generalize f.names = names at hname honly ⊢
  induction names with
  | nil => cases hname
  | cons n names ih =>
    rw [List.findSome?_cons]
    by_cases hn : n = name
    · rw [hn, hj]
      rfl
    · rw [honly n List.mem_cons_self hn]
      exact ih (List.mem_of_ne_of_mem (Ne.symm hn) hname) fun k hk =>
        honly k (List.mem_cons_of_mem _ hk)

/-- A field is read as before if its value is. -/
theorem Field.check_within (h : Option.Rel (fun x y => f.slot.Keeps x.2 y.2)
    (f.inUse? members) (f.inUse? members')) :
    (f.check (Value.ofMembers members)).Within (f.check (Value.ofMembers members')) := by
  have hfind := find?_ofMembers f members
  have hfind' := find?_ofMembers f members'
  generalize f.inUse? members = o, f.inUse? members' = o' at h hfind hfind'
  cases f with
  | required name others slot =>
    show (Checked.required name others slot.check _).Within (Checked.required name others _ _)
    cases h with
    | none => rw [required_of_none hfind, required_of_none hfind']; exact .refl _
    | some hab =>
      rw [required_of_find? hfind, required_of_find? hfind']
      exact hab.read.under
  | optional name others slot =>
    show (Checked.optional name others slot.check _).Within (Checked.optional name others _ _)
    cases h with
    | none => rw [optional_of_none hfind, optional_of_none hfind']; exact .refl _
    | @some x y hab =>
      obtain ⟨key, a⟩ := x
      obtain ⟨key', b⟩ := y
      by_cases ha : a = .null
      · have hb : b = .null := hab.null.mp ha
        subst ha hb
        rw [optional_of_null hfind, optional_of_null hfind']
        exact .refl _
      · have hb : b ≠ .null := fun hb => ha (hab.null.mpr hb)
        rw [optional_of_find? hfind (ofJson_ne_null ha),
          optional_of_find? hfind' (ofJson_ne_null hb)]
        exact hab.read.under.map

/-! ### One step -/

theorem Slot.Keeps.refl (s : Slot) (j : Json) : s.Keeps j j := ⟨.refl _, Iff.rfl⟩

theorem Slot.Keeps.trans {s : Slot} {c : Json} (hab : s.Keeps a b) (hbc : s.Keeps b c) :
    s.Keeps a c :=
  ⟨fun x hx => hbc.read x (hab.read x hx), hab.null.trans hbc.null⟩

theorem rel_keeps_refl (s : Slot) (o : Option Json) : Option.Rel s.Keeps o o := by
  cases o with
  | none => exact .none
  | some j => exact .some (.refl s j)

theorem unknownKeys_eq_nil :
    m.unknownKeys members = [] ↔
      (m = .subsection → ∀ key ∈ members.map Prod.fst, m.Knows key) := by
  simp only [List.eq_nil_iff_forall_not_mem, mem_unknownKeys, List.forall_mem_map]
  constructor
  · intro h hm e he
    by_contra hknows
    exact h _ ⟨hm, e, he, hknows, rfl⟩
  · rintro h x ⟨hm, e, he, hknows, rfl⟩
    exact hknows (h hm e he)

/-- An object is read as before if its fields are and no key is forbidden. -/
theorem keeps_object
    (hfields : ∀ f ∈ m.fields, Option.Rel (fun x y => f.slot.Keeps x.2 y.2)
      (f.inUse? members) (f.inUse? members'))
    (hkeys : m = .subsection → (∀ key ∈ members.map Prod.fst, m.Knows key) →
      ∀ key ∈ members'.map Prod.fst, m.Knows key) :
    (Slot.object m).Keeps (.object members) (.object members') := by
  refine ⟨Model.check_of_fields (fun f hf => Field.check_within (hfields f hf)) fun h => ?_,
    by simp⟩
  rw [unknownKeys_eq_nil] at h ⊢
  exact fun hm => hkeys hm (h hm)

/-- Where no object should be, none is read. -/
theorem Slot.Keeps.of_object {s : Slot}
    (h : ∀ m, s = .object m → (Slot.object m).Keeps (.object members) (.object members')) :
    s.Keeps (.object members) (.object members') := by
  cases s with
  | object m => exact h m rfl
  | any => exact ⟨.refl _, by simp⟩
  | _ => exact ⟨fun x hx => (nomatch hx), by simp⟩

theorem keeps_value {s : Slot} (h : (s.inside key).Keeps a b) :
    s.Keeps (.object (front ++ (key, a) :: back)) (.object (front ++ (key, b) :: back)) := by
  refine .of_object ?_
  rintro m rfl
  refine keeps_object (fun f hf => Field.rel_inUse? fun name hname => ?_) fun _ hall => ?_
  · rw [lookup_append_cons, lookup_append_cons]
    by_cases hkey : name = key
    · rw [if_pos hkey, if_pos hkey]
      rw [inside_of_mem hf (hkey ▸ hname)] at h
      cases front.lookup name with
      | none => exact .some h
      | some c => exact .some (.refl _ _)
    · rw [if_neg hkey, if_neg hkey]
      exact rel_keeps_refl _ _
  · simpa using hall

theorem keeps_order {s : Slot} (hkeys : (members.map Prod.fst).Nodup)
    (h : members.Perm members') : s.Keeps (.object members) (.object members') := by
  refine .of_object ?_
  rintro m rfl
  refine keeps_object (fun f _ => Field.rel_inUse? fun name _ => ?_) fun _ hall key hkey => ?_
  · rw [lookup_of_perm hkeys h]
    exact rel_keeps_refl _ _
  · exact hall key ((h.map _).mem_iff.mpr hkey)

theorem keeps_unknown (hm : m ≠ .subsection) (hkey : ¬ m.Knows key) :
    (Slot.object m).Keeps (.object (front ++ back)) (.object (front ++ (key, j) :: back)) := by
  refine keeps_object (fun f hf => Field.rel_inUse? fun name hname => ?_) fun h => absurd h hm
  have hne : name ≠ key := fun h => hkey ⟨f, hf, h ▸ hname⟩
  rw [lookup_append_cons, if_neg hne]
  exact rel_keeps_refl _ _

theorem keeps_rename (hf : f ∈ m.fields) (hname : name ∈ f.names)
    (huse : f.inUse? (front ++ (key, j) :: back) = some (key, j)) :
    (Slot.object m).Keeps (.object (front ++ (key, j) :: back))
      (.object (f.without front ++ (name, j) :: f.without back)) := by
  have hkey := (Field.of_inUse? huse).1
  refine keeps_object (fun g hg => ?_) fun hm hall n hn => ?_
  · by_cases hgf : g = f
    · subst hgf
      rw [huse, Field.inUse?_of_only hname]
      · exact .some (.refl _ _)
      · rw [lookup_append_cons, if_pos rfl, lookup_without_of_mem hname]
        rfl
      · intro n hn hne
        rw [lookup_append_cons, if_neg hne, List.lookup_append, lookup_without_of_mem hn,
          lookup_without_of_mem hn]
        rfl
    · refine Field.rel_inUse? fun n hn => ?_
      have hout : n ∉ f.names := fun hn' => hgf (Model.eq_of_mem_names hg hf hn hn')
      have hnkey : n ≠ key := fun h => hout (h ▸ hkey)
      have hnname : n ≠ name := fun h => hout (h ▸ hname)
      rw [lookup_append_cons, if_neg hnkey, lookup_append_cons, if_neg hnname,
        List.lookup_append, List.lookup_append, lookup_without hout, lookup_without hout]
      exact rel_keeps_refl _ _
  · obtain ⟨e, he, rfl⟩ := List.mem_map.mp hn
    rcases List.mem_append.mp he with he | he
    · exact hall _ (List.mem_map_of_mem (List.mem_append_left _ (List.mem_of_mem_filter he)))
    · rcases List.mem_cons.mp he with rfl | he
      · exact ⟨f, hf, hname⟩
      · exact hall _ (List.mem_map_of_mem
          (List.mem_append_right _ (List.mem_cons_of_mem _ (List.mem_of_mem_filter he))))

theorem keeps_item {s : Slot} {front back : List Json} (h : s.item.Keeps a b) :
    s.Keeps (.array (front ++ a :: back)) (.array (front ++ b :: back)) := by
  cases s with
  | list m =>
    refine ⟨?_, by simp⟩
    show (Checked.items m.check 0 (Value.ofItems _)).Within
      (Checked.items m.check 0 (Value.ofItems _))
    have hself : ∀ js : List Json, List.Forall₂ (fun v v' => (m.check v).Within (m.check v'))
        (js.map .ofJson) (js.map .ofJson) := fun js => List.forall₂_same.mpr fun v _ => .refl _
    rw [ofItems_eq_map, ofItems_eq_map, List.map_append, List.map_append]
    exact .items (List.rel_append (hself front) (.cons h.read (hself back)))
  | object m =>
    refine ⟨fun x hx => ?_, by simp⟩
    cases m <;> cases hx
  | any => exact ⟨.refl _, by simp⟩
  | _ => exact ⟨fun x hx => (nomatch hx), by simp⟩

/-! ### Any number of steps -/

theorem keeps_of_respelled {s : Slot} (h : Respelled s a b) : s.Keeps a b := by
  induction h with
  | refl s j => exact .refl s j
  | trans _ _ hab hbc => exact hab.trans hbc
  | item _ _ _ h => exact keeps_item h
  | value _ _ _ _ h => exact keeps_value h
  | order hkeys h => exact keeps_order hkeys h
  | unknown _ _ hm hkey => exact keeps_unknown hm hkey
  | rename _ _ hf hname huse => exact keeps_rename hf hname huse

end Fields

/-! ### The order of the narration -/

/-- Every object has its keys in the order of the table, and no other name of a field than the one
in documents. -/
inductive InOrder : Slot → Json → Prop
  | object {m : Model} {members : List (Text × Json)} :
      (members.map Prod.fst).Sublist (m.fields.map Field.name) →
        (∀ f ∈ m.fields, ∀ j ∈ members.lookup f.name, InOrder f.slot j) →
          InOrder (.object m) (.object members)
  | list {m : Model} {items : List Json} :
      (∀ j ∈ items, InOrder (.object m) j) → InOrder (.list m) (.array items)
  | leaf {s : Slot} {j : Json} : (∀ m, s ≠ .object m ∧ s ≠ .list m) → InOrder s j

section Payload

variable {α : Type} {key : Text} {keys : List Text} {j : Json} {toJson : α → Json} {o : Option α}
  {rest : List (Text × Json)}

theorem sublist_member (h : (rest.map Prod.fst).Sublist keys) :
    ((member key j ++ rest).map Prod.fst).Sublist (key :: keys) :=
  h.cons_cons key

theorem sublist_optionalMember (h : (rest.map Prod.fst).Sublist keys) :
    ((optionalMember key toJson o ++ rest).map Prod.fst).Sublist (key :: keys) := by
  cases o with
  | none => exact h.cons key
  | some a => exact h.cons_cons key

theorem inOrder_flow (f : Flow) : InOrder (.object .flow) f.payload := by
  refine .object ?keys ?values
  case keys =>
    exact sublist_member (sublist_member (sublist_member (sublist_optionalMember
      (sublist_optionalMember (sublist_optionalMember .slnil)))))
  case values =>
    intro g hg j _
    have hleaf : ∀ m, g.slot ≠ .object m ∧ g.slot ≠ .list m := by
      revert g
      simp [Model.fields, Field.slot]
    exact .leaf hleaf

theorem inOrder_flows (flows : List Flow) :
    InOrder (.list .flow) (.array (flows.map Flow.payload)) := by
  refine .list fun j hj => ?_
  obtain ⟨f, _, rfl⟩ := List.mem_map.mp hj
  exact inOrder_flow f

theorem inOrder_subsection (sub : Subsection) : InOrder (.object .subsection) sub.payload := by
  refine .object (List.Sublist.refl _) ?_
  simp only [Model.fields, List.forall_mem_singleton]
  rintro j hj
  cases hj
  exact inOrder_flows _

theorem inOrder_topSection (sec : Section) : InOrder (.object .topSection) sec.payload := by
  refine .object (sublist_member (sublist_optionalMember .slnil)) ?_
  simp only [Model.fields, List.forall_mem_cons]
  refine ⟨?flows, ?subsections, by simp⟩
  case flows =>
    rintro j hj
    cases hj
    exact inOrder_flows _
  case subsections =>
    intro j hj
    have hj : sec.subsections.map (fun subs => Json.array (subs.map Subsection.payload)) =
        some j := by
      simpa [flowsMember, List.lookup_append, Field.name] using hj
    obtain ⟨subs, _, rfl⟩ := Option.map_eq_some_iff.mp hj
    refine .list fun j hj => ?_
    obtain ⟨sub, _, rfl⟩ := List.mem_map.mp hj
    exact inOrder_subsection sub

theorem inOrder_document (d : Document) : InOrder (.object .document) d.payload := by
  refine .object ?keys ?values
  case keys =>
    have hsettings : (d.settings.members.map Prod.fst).Sublist
        ((Model.document.fields.map Field.name).take 10) :=
      sublist_member (sublist_member (sublist_optionalMember (sublist_optionalMember
        (sublist_optionalMember (sublist_optionalMember (sublist_optionalMember
          (sublist_optionalMember (sublist_optionalMember (sublist_optionalMember .slnil)))))))))
    rw [List.map_append]
    exact hsettings.append (.refl _)
  case values =>
    have hsections : ∀ j ∈ (d.settings.members ++ member "sections"
        (.array (d.sections.map Section.payload))).lookup (Text.ofString "sections"),
        InOrder (.list .topSection) j := by
      intro j hj
      have hj : Json.array (d.sections.map Section.payload) = j := by
        simpa [Settings.members, List.lookup_append] using hj
      subst hj
      refine .list fun j hj => ?_
      obtain ⟨sec, _, rfl⟩ := List.mem_map.mp hj
      exact inOrder_topSection sec
    intro f hf j hj
    have hslot : (f.name = Text.ofString "sections" ∧ f.slot = .list .topSection) ∨
        ∀ m, f.slot ≠ .object m ∧ f.slot ≠ .list m := by
      revert f
      simp [Model.fields, Field.name, Field.slot]
    rcases hslot with ⟨hname, hslot⟩ | hleaf
    · rw [hname] at hj
      rw [hslot]
      exact hsections j hj
    · exact .leaf hleaf

end Payload

end Schema

open Checked Schema

/-- Checks document data and compiles it, with its pictures in `folder`. -/
def compileJson (w : Workspace) (folder : FolderName) (data : Json) : Checked (Run Bundle) :=
  (fun d => compileDocument w d folder) <$> Document.check (.ofJson data)

/-- **Only recognised content counts.** Data that is accepted is accepted however it is written,
as the same document, and everything compiled from it is the same. The narration has its keys as
in documents and in the order of the schema. -/
theorem check_of_respelled {data data' : Json} {d : Document}
    (hd : Document.check (.ofJson data) = .valid d)
    (h : Respelled (.object .document) data data') :
    Document.check (.ofJson data') = .valid d ∧
      ∀ w folder, compileJson w folder data' = compileJson w folder data ∧
        ∃ run, compileJson w folder data' = .valid run ∧ ∀ b, run.outcome = .ok b →
          b.narration = b.document.payload.print ∧
            InOrder (.object .document) b.document.payload := by
  have hd' : Document.check (.ofJson data') = .valid d := (keeps_of_respelled h).read d hd
  refine ⟨hd', fun w folder => ⟨?same, compileDocument w d folder, ?run, fun b hb => ?order⟩⟩
  case same => rw [compileJson, compileJson, hd', hd]
  case run => exact map_valid hd'
  case order =>
    obtain ⟨_, _, _, _, rfl⟩ := exists_of_compileDocument hb
    exact ⟨rfl, inOrder_document _⟩

/-- A document, and the same with keys in another order, under old and long names, and with a note
that nothing reads. -/
def talkData : Json :=
  .object
    [("min", .text "1em"), ("max", .text "2em"),
      ("sections", .array [.object [("flows", .array [.object
        [("id", .text "a"), ("html", .text "One."), ("seconds", .int 1),
          ("centered", .bool true)]])]])]

def respelledTalkData : Json :=
  .object
    [("note", .null),
      ("illustration", .array [.object [("flows", .array [.object
        [("seconds", .int 1), ("centered", .bool true), ("id", .text "a"),
          ("html", .text "One.")]])]]),
      ("max", .text "2em"), ("min_size", .text "1em")]

theorem respelled_talkData : Respelled (.object .document) talkData respelledTalkData := by
  have hflow : Respelled (.object .flow)
      (.object [("id", .text "a"), ("html", .text "One."), ("seconds", .int 1),
        ("centered", .bool true)])
      (.object [("seconds", .int 1), ("centered", .bool true), ("id", .text "a"),
        ("html", .text "One.")]) :=
    .order (by decide) (@List.perm_append_comm _ [_, _] [_, _])
  have hflows := Respelled.item (s := .list .flow) [] [] hflow
  have hsection := Respelled.value (s := .object .topSection) [] [] "flows" hflows
  have hsections := Respelled.item (s := .list .topSection) [] [] hsection
  have hvalue := Respelled.value (s := .object .document)
    [("min", .text "1em"), ("max", .text "2em")] [] "sections" hsections
  have hmin (j : Json) : Respelled (.object .document)
      (.object [("min", .text "1em"), ("max", .text "2em"), ("sections", j)])
      (.object [("min_size", .text "1em"), ("max", .text "2em"), ("sections", j)]) :=
    .rename (f := .required "min" ["min_size"] (.matching fontSize)) [] _
      (by simp [Model.fields]) (by simp [Field.names]) rfl
  have hold (j : Json) : Respelled (.object .document)
      (.object [("min_size", .text "1em"), ("max", .text "2em"), ("sections", j)])
      (.object [("min_size", .text "1em"), ("max", .text "2em"), ("illustration", j)]) :=
    .rename (f := .required "sections" ["illustration"] (.list .topSection))
      [("min_size", .text "1em"), ("max", .text "2em")] []
      (by simp [Model.fields]) (by simp [Field.names]) rfl
  have horder (j : Json) : Respelled (.object .document)
      (.object [("min_size", .text "1em"), ("max", .text "2em"), ("illustration", j)])
      (.object [("illustration", j), ("max", .text "2em"), ("min_size", .text "1em")]) :=
    .order (show List.Nodup [Text.ofString "min_size", "max", "illustration"] by decide)
      (List.reverse_perm _).symm
  have hnote (members : List (Text × Json)) : Respelled (.object .document)
      (.object members) (.object (("note", .null) :: members)) :=
    .unknown [] members (by decide) (by simp [Model.Knows, Model.fields, Field.names])
  exact hvalue.trans ((hmin _).trans ((hold _).trans ((horder _).trans (hnote _))))

theorem check_of_respelled_talkData :
    Document.check (.ofJson respelledTalkData) = .valid oldTalk ∧
      ∀ w folder, compileJson w folder respelledTalkData = compileJson w folder talkData := by
  have hd : Document.check (.ofJson talkData) = .valid oldTalk := by rfl
  obtain ⟨hd', hcompile⟩ := check_of_respelled hd respelled_talkData
  exact ⟨hd', fun w folder => (hcompile w folder).1⟩

end SvgDeck
