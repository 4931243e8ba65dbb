/-
The document as a tree of places.

A place holds at most one flow (`Document.flowAt?`), and the list of flows is the list
of all places that hold one, each once, in the order of the show.  Which places there
are depends on the shape of the tree alone, and putting a flow back keeps the shape and
all other places.  So after a rebuild every place holds the flow of the last entry for
it, or what it held before:

* `mem_flowRefs`, `nodup_place_flowRefs` — the list has every place once, with what stands there;
* `place_flowRefs` — trees of one shape have the same places in the same order;
* `flowAt?_setFlow`, `flowAt?_rebuild` — what places hold after a change;
* `flows_rebuild`, `flows_rebuild_qualified` — a rebuild with every flow changed changes every flow.
-/
import SvgDeck.Outline
import SvgDeck.Proofs.FlowId
import Mathlib.Data.List.Basic
import Mathlib.Data.List.Nodup

namespace SvgDeck

/-! ### Flows, shape and places -/

/-- The flows of a section in the order of the show. -/
def Section.flowList (sec : Section) : List Flow :=
  sec.flows ++ sec.subsectionList.flatMap (·.flows)

/-- The flows of a document in the order of the show. -/
def Document.flows (d : Document) : List Flow := d.sections.flatMap Section.flowList

/-- How many flows a section holds itself, and how many each subsection, if there are any. -/
def Section.shape (sec : Section) : Nat × Option (List Nat) :=
  (sec.flows.length, sec.subsections.map fun subs => subs.map fun sub => sub.flows.length)

def Document.shape (d : Document) : List (Nat × Option (List Nat)) := d.sections.map Section.shape

/-- The flows that a section holds itself, or those of a subsection. -/
def Section.flowsIn? (sec : Section) : Option Nat → Option (List Flow)
  | none => some sec.flows
  | some k => sec.subsectionList[k]?.map (·.flows)

def Section.flowAt? (sec : Section) (k : Option Nat) (i : Nat) : Option Flow :=
  (sec.flowsIn? k).bind (·[i]?)

/-- The flow in a place of a document. -/
def Document.flowAt? (d : Document) (p : Place) : Option Flow :=
  d.sections[p.sectionIndex]?.bind fun sec => sec.flowAt? p.subsectionIndex p.flowIndex

/-! ### The list of flows -/

theorem mem_listFlows {s : Nat} {k : Option Nat} {flows : List Flow} {ref : FlowRef} :
    ref ∈ listFlows s k flows ↔ ref.place.sectionIndex = s ∧ ref.place.subsectionIndex = k ∧
      flows[ref.place.flowIndex]? = some ref.flow ∧ ref.root = ref.flow.id := by
  obtain ⟨⟨s', k', i⟩, root, f⟩ := ref
  simp only [listFlows, List.mem_mapIdx]
  constructor
  · rintro ⟨j, hj, h⟩
    cases h
    exact ⟨rfl, rfl, List.getElem?_eq_getElem hj, rfl⟩
  · rintro ⟨rfl, rfl, hf, rfl⟩
    obtain ⟨hi, rfl⟩ := List.getElem?_eq_some_iff.mp hf
    exact ⟨i, hi, rfl⟩

theorem Section.mem_flowRefs {s : Nat} {sec : Section} {ref : FlowRef} :
    ref ∈ sec.flowRefs s ↔ ref.place.sectionIndex = s ∧
      sec.flowAt? ref.place.subsectionIndex ref.place.flowIndex = some ref.flow ∧
      ref.root = ref.flow.id := by
  simp only [Section.flowRefs, List.mem_append, List.mem_flatten, List.mem_mapIdx]
  constructor
  · rintro (href | ⟨refs, ⟨k, hk, rfl⟩, href⟩)
    · obtain ⟨hs, hk, hf, hr⟩ := mem_listFlows.mp href
      exact ⟨hs, by rw [hk, Section.flowAt?, Section.flowsIn?, Option.bind_some, hf], hr⟩
    · obtain ⟨hs, hk', hf, hr⟩ := mem_listFlows.mp href
      refine ⟨hs, ?_, hr⟩
      rw [hk', Section.flowAt?, Section.flowsIn?, List.getElem?_eq_getElem hk, Option.map_some,
        Option.bind_some, hf]
  · rintro ⟨hs, hf, hr⟩
    obtain ⟨flows, hflows, hi⟩ := Option.bind_eq_some_iff.mp hf
    cases hk : ref.place.subsectionIndex with
    | none =>
      rw [hk] at hflows
      cases hflows
      exact Or.inl (mem_listFlows.mpr ⟨hs, hk, hi, hr⟩)
    | some k =>
      rw [hk] at hflows
      obtain ⟨sub, hsub, rfl⟩ := Option.map_eq_some_iff.mp hflows
      obtain ⟨hlt, rfl⟩ := List.getElem?_eq_some_iff.mp hsub
      exact Or.inr ⟨_, ⟨k, hlt, rfl⟩, mem_listFlows.mpr ⟨hs, hk, hi, hr⟩⟩

/-- The list of flows has the places that hold a flow. -/
theorem mem_flowRefs {d : Document} {ref : FlowRef} :
    ref ∈ d.flowRefs ↔ d.flowAt? ref.place = some ref.flow ∧ ref.root = ref.flow.id := by
  simp only [Document.flowRefs, List.mem_flatten, List.mem_mapIdx]
  constructor
  · rintro ⟨refs, ⟨s, hs, rfl⟩, href⟩
    obtain ⟨rfl, hf, hr⟩ := Section.mem_flowRefs.mp href
    exact ⟨by rw [Document.flowAt?, List.getElem?_eq_getElem hs, Option.bind_some, hf], hr⟩
  · rintro ⟨hf, hr⟩
    obtain ⟨sec, hsec, hf⟩ := Option.bind_eq_some_iff.mp hf
    obtain ⟨hs, rfl⟩ := List.getElem?_eq_some_iff.mp hsec
    exact ⟨_, ⟨_, hs, rfl⟩, Section.mem_flowRefs.mpr ⟨rfl, hf, hr⟩⟩

/-- Where the parts of a list are listed one after the other, so are their images. -/
theorem map_flatten_mapIdx {α β γ : Type} {l : List α} {parts : Nat → α → List β} {g : β → γ}
    {image : α → List γ} (h : ∀ i a, (parts i a).map g = image a) :
    (l.mapIdx parts).flatten.map g = l.flatMap image := by
  have himage : (l.mapIdx parts).map (List.map g) = l.map image :=
    List.ext_getElem? fun i => by simp [Function.comp_def, h]
  rw [List.map_flatten, himage, List.flatMap_def]

theorem flow_listFlows (s : Nat) (k : Option Nat) (flows : List Flow) :
    (listFlows s k flows).map (·.flow) = flows :=
  List.ext_getElem? fun i => by simp [listFlows, Function.comp_def]

theorem Section.flow_flowRefs (s : Nat) (sec : Section) :
    (sec.flowRefs s).map (·.flow) = sec.flowList := by
  rw [Section.flowRefs, Section.flowList, List.map_append, flow_listFlows,
    map_flatten_mapIdx fun k sub => flow_listFlows s (some k) sub.flows]

theorem flow_flowRefs (d : Document) : d.flowRefs.map (·.flow) = d.flows :=
  map_flatten_mapIdx Section.flow_flowRefs

/-! ### Places -/

/-- The places of `n` flows that stand side by side. -/
def placesIn (s : Nat) (k : Option Nat) (n : Nat) : List Place := (List.range n).map (⟨s, k, ·⟩)

/-- The places of a section of a given shape. -/
def sectionPlaces (s : Nat) (shape : Nat × Option (List Nat)) : List Place :=
  placesIn s none shape.1 ++
    ((shape.2.getD []).mapIdx fun k n => placesIn s (some k) n).flatten

/-- The places of a document of a given shape, in the order of the show. -/
def placesOf (shape : List (Nat × Option (List Nat))) : List Place :=
  (shape.mapIdx sectionPlaces).flatten

theorem place_listFlows (s : Nat) (k : Option Nat) (flows : List Flow) :
    (listFlows s k flows).map (·.place) = placesIn s k flows.length :=
  List.ext_getElem? fun i => by
    by_cases hi : i < flows.length
    · simp [listFlows, placesIn, hi]
    · simp [listFlows, placesIn, hi]

theorem Section.place_flowRefs (s : Nat) (sec : Section) :
    (sec.flowRefs s).map (·.place) = sectionPlaces s sec.shape := by
  have hsubs : (sec.shape.2.getD []) = sec.subsectionList.map fun sub => sub.flows.length := by
    rw [Section.shape, Section.subsectionList]
    cases sec.subsections with
    | none => rfl
    | some subs => rfl
  rw [Section.flowRefs, sectionPlaces, hsubs, List.map_append, place_listFlows, List.map_flatten]
  congr 2
  exact List.ext_getElem? fun k => by simp [place_listFlows, Function.comp_def]

/-- The places of the flows depend on the shape of the document alone. -/
theorem place_flowRefs (d : Document) : d.flowRefs.map (·.place) = placesOf d.shape := by
  rw [Document.flowRefs, placesOf, List.map_flatten]
  congr 1
  refine List.ext_getElem? fun s => ?_
  simp [Document.shape, Section.place_flowRefs, Function.comp_def]

/-- Parts that are told apart by their index have no member in common. -/
theorem nodup_flatten_mapIdx {α β γ : Type} {l : List α} {parts : Nat → α → List β} (key : β → γ)
    {index : Nat → γ} (hindex : Function.Injective index)
    (hkey : ∀ i a, ∀ b ∈ parts i a, key b = index i) (h : ∀ i a, (parts i a).Nodup) :
    (l.mapIdx parts).flatten.Nodup := by
  refine List.nodup_flatten.mpr ⟨fun part hpart => ?_, List.pairwise_iff_getElem.mpr ?_⟩
  · obtain ⟨i, hi, rfl⟩ := List.mem_mapIdx.mp hpart
    exact h i _
  · intro i j hi hj hij b hbi hbj
    rw [List.getElem_mapIdx] at hbi hbj
    -- A common member would give the two parts one index.
    have heq : index i = index j := (hkey _ _ b hbi).symm.trans (hkey _ _ b hbj)
    exact absurd (hindex heq) (Nat.ne_of_lt hij)

theorem nodup_placesIn (s : Nat) (k : Option Nat) (n : Nat) : (placesIn s k n).Nodup :=
  List.nodup_range.map fun i j hij => by cases hij; rfl

theorem mem_placesIn {s : Nat} {k : Option Nat} {n : Nat} {p : Place} (h : p ∈ placesIn s k n) :
    p.sectionIndex = s ∧ p.subsectionIndex = k := by
  obtain ⟨i, _, rfl⟩ := List.mem_map.mp h
  exact ⟨rfl, rfl⟩

theorem mem_sectionPlaces {s : Nat} {shape : Nat × Option (List Nat)} {p : Place}
    (h : p ∈ sectionPlaces s shape) : p.sectionIndex = s := by
  rcases List.mem_append.mp h with h | h
  · exact (mem_placesIn h).1
  · obtain ⟨part, hpart, hp⟩ := List.mem_flatten.mp h
    obtain ⟨k, hk, rfl⟩ := List.mem_mapIdx.mp hpart
    exact (mem_placesIn hp).1

theorem nodup_sectionPlaces (s : Nat) (shape : Nat × Option (List Nat)) :
    (sectionPlaces s shape).Nodup := by
  refine List.nodup_append.mpr ⟨nodup_placesIn _ _ _, ?_, fun p hp q hq => ?_⟩
  · exact nodup_flatten_mapIdx Place.subsectionIndex (fun _ _ => Option.some.inj)
      (fun k n p hp => (mem_placesIn hp).2) fun k n => nodup_placesIn s (some k) n
  · -- A flow of a subsection does not stand beside those of the section itself.
    obtain ⟨part, hpart, hq⟩ := List.mem_flatten.mp hq
    obtain ⟨k, hk, rfl⟩ := List.mem_mapIdx.mp hpart
    rintro rfl
    cases (mem_placesIn hp).2.symm.trans (mem_placesIn hq).2

theorem nodup_placesOf (shape : List (Nat × Option (List Nat))) : (placesOf shape).Nodup :=
  nodup_flatten_mapIdx Place.sectionIndex Function.injective_id
    (fun _ _ _ hp => mem_sectionPlaces hp) nodup_sectionPlaces

theorem nodup_place_flowRefs (d : Document) : (d.flowRefs.map (·.place)).Nodup := by
  rw [place_flowRefs]
  exact nodup_placesOf d.shape

/-! ### Putting a flow back -/

theorem Section.shape_setFlow (sec : Section) (k : Option Nat) (i : Nat) (f : Flow) :
    (sec.setFlow k i f).shape = sec.shape := by
  cases k with
  | none => simp [Section.setFlow, Section.shape]
  | some k =>
    simp only [Section.setFlow, Section.shape, Option.map_map, Prod.mk.injEq, true_and]
    refine congrArg (fun g => Option.map g sec.subsections) (funext fun subs => ?_)
    refine List.ext_getElem? fun j => ?_
    simp only [Function.comp_def, List.getElem?_map, List.getElem?_modify]
    by_cases hj : k = j
    · simp [hj, Function.comp_def]
    · simp [hj]

theorem shape_setFlow (d : Document) (p : Place) (f : Flow) : (d.setFlow p f).shape = d.shape := by
  refine List.ext_getElem? fun s => ?_
  simp only [Document.setFlow, Document.shape, List.getElem?_map, List.getElem?_modify]
  by_cases hs : p.sectionIndex = s
  · simp [hs, Function.comp_def, Section.shape_setFlow]
  · simp [hs]

theorem Section.subsectionList_setFlow (sec : Section) (k i : Nat) (f : Flow) :
    (sec.setFlow (some k) i f).subsectionList =
      sec.subsectionList.modify k fun sub => { sub with flows := sub.flows.set i f } := by
  rw [Section.setFlow, Section.subsectionList, Section.subsectionList]
  cases sec.subsections with
  | none => simp
  | some subs => rfl

theorem getElem?_set_eq (flows : List Flow) (i j : Nat) (f : Flow) :
    (flows.set i f)[j]? = if j = i then flows[j]?.map fun _ => f else flows[j]? := by
  rw [List.getElem?_set]
  by_cases h : j = i
  · subst h
    by_cases hj : j < flows.length
    · simp [hj]
    · simp [hj]
  · rw [if_neg h, if_neg (Ne.symm h)]

theorem Section.flowAt?_setFlow (sec : Section) (k k' : Option Nat) (i i' : Nat) (f : Flow) :
    (sec.setFlow k i f).flowAt? k' i' =
      if k' = k ∧ i' = i then (sec.flowAt? k' i').map fun _ => f else sec.flowAt? k' i' := by
  -- A section's own flows and those of its subsections are changed apart from each other.
  cases k with
  | none =>
    cases k' with
    | none =>
      simp [Section.flowAt?, Section.flowsIn?, Section.setFlow, getElem?_set_eq]
    | some k' =>
      rw [if_neg (by simp)]
      rfl
  | some k =>
    cases k' with
    | none =>
      rw [if_neg (by simp)]
      rfl
    | some k' =>
      simp only [Section.flowAt?, Section.flowsIn?, Section.subsectionList_setFlow,
        List.getElem?_modify, Option.some.injEq]
      by_cases hk : k' = k
      · subst hk
        cases sec.subsectionList[k']? with
        | none => simp
        | some sub => simp [getElem?_set_eq]
      · have hk' : ¬ k = k' := Ne.symm hk
        simp [hk, hk']

theorem flowAt?_setFlow (d : Document) (p q : Place) (f : Flow) :
    (d.setFlow p f).flowAt? q =
      if q = p then (d.flowAt? q).map fun _ => f else d.flowAt? q := by
  obtain ⟨s, k, i⟩ := p
  obtain ⟨s', k', i'⟩ := q
  simp only [Document.flowAt?, Document.setFlow, List.getElem?_modify, Place.mk.injEq]
  by_cases hs : s' = s
  · subst hs
    cases d.sections[s']? with
    | none => simp
    | some sec => simp [Section.flowAt?_setFlow]
  · have hs' : ¬ s = s' := Ne.symm hs
    simp [hs, hs']

/-! ### Rebuilding -/

/-- The flow that a list has for a place; the last entry for the place counts. -/
def flowFor? (p : Place) : List FlowRef → Option Flow
  | [] => none
  | ref :: refs => (flowFor? p refs).or (if ref.place = p then some ref.flow else none)

@[simp] theorem rebuild_nil (d : Document) : d.rebuild [] = d := rfl

theorem rebuild_cons (d : Document) (ref : FlowRef) (refs : List FlowRef) :
    d.rebuild (ref :: refs) = (d.setFlow ref.place ref.flow).rebuild refs := rfl

@[simp] theorem settings_rebuild (d : Document) (refs : List FlowRef) :
    (d.rebuild refs).settings = d.settings := by
  induction refs generalizing d with
  | nil => rfl
  | cons ref refs ih =>
    rw [rebuild_cons, ih]
    rfl

@[simp] theorem shape_rebuild (d : Document) (refs : List FlowRef) :
    (d.rebuild refs).shape = d.shape := by
  induction refs generalizing d with
  | nil => rfl
  | cons ref refs ih => rw [rebuild_cons, ih, shape_setFlow]

/-- After a rebuild a place holds what the list has for it, or what it held before. -/
theorem flowAt?_rebuild (d : Document) (refs : List FlowRef) (p : Place) :
    (d.rebuild refs).flowAt? p = (d.flowAt? p).map fun f => (flowFor? p refs).getD f := by
  induction refs generalizing d with
  | nil => simp [flowFor?]
  | cons ref refs ih =>
    rw [rebuild_cons, ih, flowAt?_setFlow, flowFor?]
    -- Later entries go over this one, also where they are for the same place.
    by_cases hp : p = ref.place
    · subst hp
      cases d.flowAt? ref.place with
      | none => simp
      | some f => cases flowFor? ref.place refs <;> simp
    · rw [if_neg hp, if_neg (Ne.symm hp), Option.or_none]

theorem flowFor?_of_not_mem {p : Place} {refs : List FlowRef} (h : p ∉ refs.map (·.place)) :
    flowFor? p refs = none := by
  induction refs with
  | nil => rfl
  | cons ref refs ih =>
    rw [List.map_cons, List.mem_cons, not_or] at h
    rw [flowFor?, ih h.2, if_neg (Ne.symm h.1)]
    rfl

/-- In a list that has no place twice the entry for a place is the only one. -/
theorem flowFor?_of_mem {refs : List FlowRef} {ref : FlowRef}
    (hn : (refs.map (·.place)).Nodup) (h : ref ∈ refs) :
    flowFor? ref.place refs = some ref.flow := by
  induction refs with
  | nil => cases h
  | cons r refs ih =>
    rw [List.map_cons, List.nodup_cons] at hn
    rcases List.mem_cons.mp h with rfl | h
    · rw [flowFor?, flowFor?_of_not_mem hn.1, if_pos rfl]
      rfl
    · rw [flowFor?, ih hn.2 h]
      rfl

/-- A list with an entry for every place, in order, becomes the flows of the document. -/
theorem flows_rebuild {d : Document} {refs : List FlowRef}
    (h : refs.map (·.place) = d.flowRefs.map (·.place)) :
    (d.rebuild refs).flows = refs.map (·.flow) := by
  have hplaces : (d.rebuild refs).flowRefs.map (·.place) = refs.map (·.place) := by
    rw [place_flowRefs, shape_rebuild, ← place_flowRefs, h]
  have hn : (refs.map (·.place)).Nodup := by
    rw [h]
    exact nodup_place_flowRefs d
  have hlength : (d.rebuild refs).flowRefs.length = refs.length := by
    simpa using congrArg List.length hplaces
  rw [← flow_flowRefs]
  refine List.ext_getElem (by simpa using hlength) fun i hi hi' => ?_
  rw [List.getElem_map, List.getElem_map]
  rw [List.length_map] at hi hi'
  -- The two entries stand in one place, and the document holds there what the list has for it.
  have hplace : (d.rebuild refs).flowRefs[i].place = refs[i].place := by
    have := congrArg (·[i]?) hplaces
    simpa [hi, hi'] using this
  have hat := (mem_flowRefs.mp (List.getElem_mem hi)).1
  rw [hplace, flowAt?_rebuild, flowFor?_of_mem hn (List.getElem_mem hi')] at hat
  obtain ⟨_, _, hf⟩ := Option.map_eq_some_iff.mp hat
  exact hf.symm

/-! ### Qualified ids -/

@[simp] theorem place_mapFlows (change : Flow → Flow) (refs : List FlowRef) :
    (mapFlows change refs).map (·.place) = refs.map (·.place) := by
  simp [mapFlows, Function.comp_def]

theorem place_qualified (d : Document) : d.qualified.map (·.place) = d.flowRefs.map (·.place) :=
  List.ext_getElem? fun i => by simp [Document.qualified, Function.comp_def]

/-- The root of an entry is the author's id. -/
theorem root_qualified (d : Document) : d.qualified.map (·.root) = d.flows.map (·.id) := by
  rw [← flow_flowRefs]
  refine List.ext_getElem? fun i => ?_
  simp only [Document.qualified, List.getElem?_map, List.getElem?_mapIdx, Option.map_map,
    Function.comp_def]
  cases href : d.flowRefs[i]? with
  | none => rfl
  | some ref => simp [(mem_flowRefs.mp (List.mem_of_getElem? href)).2]

/-- A flow under the id that it has at a position. -/
def Flow.qualifiedAt (f : Flow) (position : Nat) : Flow := { f with id := qualify f.id position }

/-- The flows of a document with their positions, counted from one. -/
def Document.numbered (d : Document) : List (Flow × Nat) := d.flows.zipIdx 1

/-- The flows of a document under their qualified ids. -/
def Document.qualifiedFlows (d : Document) : List Flow :=
  d.numbered.map fun x => x.1.qualifiedAt x.2

theorem flow_qualified (d : Document) : d.qualified.map (·.flow) = d.qualifiedFlows := by
  rw [Document.qualifiedFlows, Document.numbered, ← flow_flowRefs]
  refine List.ext_getElem? fun i => ?_
  simp only [Document.qualified, List.getElem?_map, List.getElem?_mapIdx, List.getElem?_zipIdx,
    Option.map_map, Function.comp_def]
  cases href : d.flowRefs[i]? with
  | none => rfl
  | some ref =>
    have hroot := (mem_flowRefs.mp (List.mem_of_getElem? href)).2
    simp [Flow.qualifiedAt, hroot, Nat.add_comm]

/-- Flows that are put back under their qualified ids with a change. -/
theorem flows_rebuild_qualified (d : Document) (change : Flow → Flow) :
    (d.rebuild (mapFlows change d.qualified)).flows = d.qualifiedFlows.map change := by
  have hplaces : (mapFlows change d.qualified).map (·.place) = d.flowRefs.map (·.place) := by
    rw [place_mapFlows, place_qualified]
  rw [flows_rebuild hplaces]
  have hflows : (mapFlows change d.qualified).map (·.flow) =
      (d.qualified.map (·.flow)).map change := by
    simp [mapFlows, Function.comp_def]
  rw [hflows, flow_qualified]

/-- No two flows have the same qualified id. -/
theorem nodup_id_qualifiedFlows (d : Document) : (d.qualifiedFlows.map (·.id)).Nodup := by
  rw [Document.qualifiedFlows, List.map_map]
  refine List.pairwise_iff_getElem.mpr fun i j hi hj hij => ?_
  simp only [List.getElem_map, Document.numbered, List.getElem_zipIdx, Function.comp_apply,
    Flow.qualifiedAt]
  intro h
  -- Equal ids would stand at equal positions.
  have hn := (qualify_inj.mp h).2
  omega

end SvgDeck
