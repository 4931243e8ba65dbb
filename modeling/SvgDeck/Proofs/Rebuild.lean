/-
Listing the flows of a document and putting them back.

Nothing is lost between a document and the list of its flows, in either direction.  A
document is known by its settings, its shape and what stands in its places
(`eq_of_flowAt?`).  A rebuild changes the last of these three only, and leaves in each
place what the list has for it, so its laws are read off place by place:

* `rebuild?_eq_some` — a rebuild has a result exactly if every place of the list holds a flow;
* `rebuild_flowRefs` — putting back what was listed changes nothing;
* `rebuild_congr` — only the entries count, not their order or how often they are there;
* `rebuild_rebuild` — where every place has an entry, nothing of an earlier rebuild is left.

`rebuild_laws` puts them together.
-/
import SvgDeck.Proofs.Bundle

namespace SvgDeck

variable {d d' : Document} {refs refs' : List FlowRef} {p : Place} {f : Flow}

/-! ### What makes a document -/

theorem Section.eq_of_flowAt? {sec sec' : Section} (hshape : sec.shape = sec'.shape)
    (hflow : ∀ k i, sec.flowAt? k i = sec'.flowAt? k i) : sec = sec' := by
  obtain ⟨flows, subs⟩ := sec
  obtain ⟨flows', subs'⟩ := sec'
  obtain rfl : flows = flows' := List.ext_getElem? fun i => hflow none i
  have hsubs := (Prod.mk.inj hshape).2
  cases subs with
  | none =>
    cases subs' with
    | none => rfl
    | some subs' => cases hsubs
  | some subs =>
    cases subs' with
    | none => cases hsubs
    | some subs' =>
      have hlength : subs.length = subs'.length := by
        simpa using congrArg List.length (Option.some.inj hsubs)
      obtain rfl : subs = subs' := List.ext_getElem hlength fun k hk hk' => by
        have hflows : subs[k].flows = subs'[k].flows := List.ext_getElem? fun i => by
          simpa [Section.flowAt?, Section.flowsIn?, Section.subsectionList, hk, hk']
            using hflow (some k) i
        exact congrArg Subsection.mk hflows
      rfl

/-- A document is known by its settings, its shape and the flows in its places. -/
theorem eq_of_flowAt? (hsettings : d.settings = d'.settings) (hshape : d.shape = d'.shape)
    (hflow : ∀ p, d.flowAt? p = d'.flowAt? p) : d = d' := by
  obtain ⟨settings, sections⟩ := d
  obtain ⟨settings', sections'⟩ := d'
  obtain rfl : settings = settings' := hsettings
  have hlength : sections.length = sections'.length := by
    simpa [Document.shape] using congrArg List.length hshape
  obtain rfl : sections = sections' := List.ext_getElem hlength fun s hs hs' => by
    refine Section.eq_of_flowAt? ?_ fun k i => ?_
    · simpa [Document.shape, hs, hs'] using congrArg (·[s]?) hshape
    · simpa [Document.flowAt?, hs, hs'] using hflow ⟨s, k, i⟩
  rfl

/-! ### Places and entries -/

/-- The places of a document, in the order of the show. -/
def Document.places (d : Document) : List Place := d.flowRefs.map (·.place)

/-- The entry that lists the flow in a place. -/
theorem mem_flowRefs_of_flowAt? (h : d.flowAt? p = some f) : ⟨p, f.id, f⟩ ∈ d.flowRefs :=
  mem_flowRefs.mpr ⟨h, rfl⟩

theorem mem_places : p ∈ d.places ↔ ∃ f, d.flowAt? p = some f := by
  constructor
  · intro h
    obtain ⟨ref, href, rfl⟩ := List.mem_map.mp h
    exact ⟨ref.flow, (mem_flowRefs.mp href).1⟩
  · rintro ⟨f, hf⟩
    exact List.mem_map.mpr ⟨_, mem_flowRefs_of_flowAt? hf, rfl⟩

theorem mem_flows : f ∈ d.flows ↔ ∃ p, d.flowAt? p = some f := by
  rw [← flow_flowRefs]
  constructor
  · intro h
    obtain ⟨ref, href, rfl⟩ := List.mem_map.mp h
    exact ⟨ref.place, (mem_flowRefs.mp href).1⟩
  · rintro ⟨p, hf⟩
    exact List.mem_map.mpr ⟨_, mem_flowRefs_of_flowAt? hf, rfl⟩

theorem places_rebuild (d : Document) (refs : List FlowRef) :
    (d.rebuild refs).places = d.places := by
  rw [Document.places, Document.places, place_flowRefs, place_flowRefs, shape_rebuild]

/-- Entries for one place are the same: they have one root and one flow. -/
def Coherent (refs : List FlowRef) : Prop :=
  ∀ r ∈ refs, ∀ r' ∈ refs, r.place = r'.place → r = r'

theorem Coherent.mono (hc : Coherent refs) (h : refs' ⊆ refs) : Coherent refs' :=
  fun r hr r' hr' => hc r (h hr) r' (h hr')

/-- A list that has no place twice has one entry for each of its places. -/
theorem coherent_of_nodup (hn : (refs.map (·.place)).Nodup) : Coherent refs :=
  fun _ hr _ hr' h => List.inj_on_of_nodup_map hn hr hr' h

theorem exists_of_flowFor? (h : flowFor? p refs = some f) :
    ∃ ref ∈ refs, ref.place = p ∧ ref.flow = f := by
  induction refs with
  | nil => cases h
  | cons ref refs ih =>
    rw [flowFor?, Option.or_eq_some_iff] at h
    rcases h with h | ⟨_, h⟩
    · obtain ⟨r, hr, hrf⟩ := ih h
      exact ⟨r, List.mem_cons_of_mem _ hr, hrf⟩
    · by_cases hp : ref.place = p
      · rw [if_pos hp, Option.some.injEq] at h
        exact ⟨ref, List.mem_cons_self, hp, h⟩
      · rw [if_neg hp] at h
        cases h

theorem flowFor?_eq_none : flowFor? p refs = none ↔ p ∉ refs.map (·.place) := by
  refine ⟨fun h => ?_, flowFor?_of_not_mem⟩
  induction refs with
  | nil => exact List.not_mem_nil
  | cons ref refs ih =>
    rw [flowFor?, Option.or_eq_none_iff] at h
    rw [List.map_cons, List.mem_cons, not_or]
    refine ⟨?_, ih h.1⟩
    rintro rfl
    rw [if_pos rfl] at h
    cases h.2

theorem exists_flowFor? (h : p ∈ refs.map (·.place)) : ∃ f, flowFor? p refs = some f :=
  Option.ne_none_iff_exists'.mp fun hnone => flowFor?_eq_none.mp hnone h

/-- In a coherent list any entry for a place tells the flow. -/
theorem flowFor?_eq_some (hc : Coherent refs) :
    flowFor? p refs = some f ↔ ∃ ref ∈ refs, ref.place = p ∧ ref.flow = f := by
  refine ⟨exists_of_flowFor?, ?_⟩
  rintro ⟨ref, href, rfl, rfl⟩
  obtain ⟨g, hfor⟩ := exists_flowFor? (List.mem_map_of_mem href)
  obtain ⟨r, hr, hplace, rfl⟩ := exists_of_flowFor? hfor
  rw [hfor, hc r hr ref href hplace]

/-! ### Rebuilding as far as there are places -/

/-- Puts flows back one by one; there is no result if one of them has no place in the document. -/
def Document.rebuild? (d : Document) (refs : List FlowRef) : Option Document :=
  refs.foldlM (fun d ref => (d.flowAt? ref.place).map fun _ => d.setFlow ref.place ref.flow) d

theorem places_setFlow (d : Document) (p : Place) (f : Flow) : (d.setFlow p f).places = d.places :=
  places_rebuild d [⟨p, f.id, f⟩]

theorem rebuild?_eq_some :
    d.rebuild? refs = some d' ↔ (∀ ref ∈ refs, ref.place ∈ d.places) ∧ d' = d.rebuild refs := by
  induction refs generalizing d with
  | nil =>
    show some d = some d' ↔ _
    simp [eq_comm]
  | cons ref refs ih =>
    show ((d.flowAt? ref.place).map fun _ => d.setFlow ref.place ref.flow).bind
      (·.rebuild? refs) = some d' ↔ _
    rw [List.forall_mem_cons, mem_places, rebuild_cons]
    -- Setting a flow makes and takes no places, so those behind it are asked of `d` as well.
    cases hf : d.flowAt? ref.place with
    | none => simp
    | some f => simp [ih, places_setFlow]

/-! ### The laws -/

/-- Putting back what was listed changes nothing. -/
theorem rebuild_flowRefs (d : Document) : d.rebuild d.flowRefs = d := by
  refine eq_of_flowAt? (settings_rebuild _ _) (shape_rebuild _ _) fun p => ?_
  rw [flowAt?_rebuild]
  cases hf : d.flowAt? p with
  | none => rfl
  | some f =>
    have hfor : flowFor? p d.flowRefs = some f :=
      flowFor?_of_mem (nodup_place_flowRefs d) (mem_flowRefs_of_flowAt? hf)
    rw [hfor]
    rfl

/-- Only the entries count, not their order or how often they are there. -/
theorem rebuild_congr (hc : Coherent refs) (h : ∀ r, r ∈ refs' ↔ r ∈ refs) :
    d.rebuild refs' = d.rebuild refs := by
  have hc' : Coherent refs' := hc.mono fun r hr => (h r).mp hr
  have hfor : ∀ p, flowFor? p refs' = flowFor? p refs := fun p =>
    Option.ext fun f => by simp only [flowFor?_eq_some hc, flowFor?_eq_some hc', h]
  refine eq_of_flowAt? ?_ ?_ fun p => ?_
  · rw [settings_rebuild, settings_rebuild]
  · rw [shape_rebuild, shape_rebuild]
  · rw [flowAt?_rebuild, flowAt?_rebuild, hfor]

/-- Where every place has an entry, nothing of an earlier rebuild is left. -/
theorem rebuild_rebuild (h : d.places ⊆ refs.map (·.place)) :
    (d.rebuild refs').rebuild refs = d.rebuild refs := by
  refine eq_of_flowAt? ?_ ?_ fun p => ?_
  · rw [settings_rebuild, settings_rebuild, settings_rebuild]
  · rw [shape_rebuild, shape_rebuild, shape_rebuild]
  · rw [flowAt?_rebuild, flowAt?_rebuild, flowAt?_rebuild, Option.map_map]
    cases hf : d.flowAt? p with
    | none => rfl
    | some f =>
      obtain ⟨g, hg⟩ := exists_flowFor? (h (mem_places.mpr ⟨f, hf⟩))
      simp [hg]

/-- A place without an entry keeps its flow. -/
theorem flowAt?_rebuild_of_not_mem (h : p ∉ refs.map (·.place)) :
    (d.rebuild refs).flowAt? p = d.flowAt? p := by
  rw [flowAt?_rebuild, flowFor?_of_not_mem h]
  simp

/-- A flow of a rebuilt document comes from the list, or it is the flow that was there. -/
theorem flowAt?_rebuild_eq_some (h : (d.rebuild refs).flowAt? p = some f) :
    (∃ ref ∈ refs, ref.place = p ∧ ref.flow = f) ∨
      (p ∉ refs.map (·.place) ∧ d.flowAt? p = some f) := by
  by_cases hp : p ∈ refs.map (·.place)
  · rw [flowAt?_rebuild] at h
    obtain ⟨g, _, hg⟩ := Option.map_eq_some_iff.mp h
    obtain ⟨x, hx⟩ := exists_flowFor? hp
    rw [hx, Option.getD_some] at hg
    subst hg
    exact Or.inl (exists_of_flowFor? hx)
  · rw [flowAt?_rebuild_of_not_mem hp] at h
    exact Or.inr ⟨hp, h⟩

/-! ### Full and partial lists -/

/-- The list has one entry for every place of the document, in any order. -/
def Covers (d : Document) (refs : List FlowRef) : Prop := (refs.map (·.place)).Perm d.places

/-- What a rebuild with an entry for every place gives: each flow in its place, in whatever order
they come, and nothing of a rebuild before. -/
structure RebuiltInFull (d : Document) (refs : List FlowRef) : Prop where
  returns : d.rebuild? refs = some (d.rebuild refs)
  places : (d.rebuild refs).flowRefs.map (·.place) = d.flowRefs.map (·.place)
  flows : ∀ ref ∈ (d.rebuild refs).flowRefs, ∃ r ∈ refs, r.place = ref.place ∧ r.flow = ref.flow
  order : ∀ refs', refs'.Perm refs → d.rebuild? refs' = some (d.rebuild refs)
  last : ∀ refs', Covers d refs' → (d.rebuild refs').rebuild? refs = some (d.rebuild refs)

/-- What a rebuild gives whose list has some of the places. -/
structure RebuiltInPart (d : Document) (refs : List FlowRef) : Prop where
  returns : d.rebuild? refs = some (d.rebuild refs)
  settings : (d.rebuild refs).settings = d.settings
  shape : (d.rebuild refs).shape = d.shape
  named : ∀ p ∈ refs.map (·.place), ∃ r ∈ refs, r.place = p ∧
    (d.rebuild refs).flowAt? p = some r.flow
  others : ∀ p, p ∉ refs.map (·.place) → (d.rebuild refs).flowAt? p = d.flowAt? p

theorem rebuild?_of_subset (h : refs.map (·.place) ⊆ d.places) :
    d.rebuild? refs = some (d.rebuild refs) :=
  rebuild?_eq_some.mpr ⟨fun _ href => h (List.mem_map_of_mem href), rfl⟩

theorem rebuiltInFull (h : Covers d refs) : RebuiltInFull d refs := by
  have hn : (refs.map (·.place)).Nodup := h.nodup_iff.mpr (nodup_place_flowRefs d)
  constructor
  case returns => exact rebuild?_of_subset h.subset
  case places => exact places_rebuild d refs
  case flows =>
    intro ref href
    have hflow := (mem_flowRefs.mp href).1
    rcases flowAt?_rebuild_eq_some hflow with hr | ⟨hp, hf⟩
    · exact hr
    · -- The list has an entry for every place.
      exact absurd (h.symm.subset (mem_places.mpr ⟨_, hf⟩)) hp
  case order =>
    intro refs' hperm
    have hsub : refs'.map (·.place) ⊆ d.places := ((hperm.map _).trans h).subset
    rw [rebuild?_of_subset hsub, rebuild_congr (coherent_of_nodup hn) fun _ => hperm.mem_iff]
  case last =>
    intro refs' _
    have hsub : refs.map (·.place) ⊆ (d.rebuild refs').places := by
      rw [places_rebuild]
      exact h.subset
    rw [rebuild?_of_subset hsub, rebuild_rebuild h.symm.subset]

theorem rebuiltInPart (h : refs.map (·.place) ⊆ d.places) : RebuiltInPart d refs := by
  constructor
  case returns => exact rebuild?_of_subset h
  case settings => exact settings_rebuild d refs
  case shape => exact shape_rebuild d refs
  case named =>
    intro p hp
    obtain ⟨f, hf⟩ := mem_places.mp ((places_rebuild d refs).symm ▸ h hp)
    obtain ⟨r, hr, hrp, hrf⟩ := (flowAt?_rebuild_eq_some hf).resolve_right fun hnot => hnot.1 hp
    exact ⟨r, hr, hrp, hrf ▸ hf⟩
  case others => exact fun p hp => flowAt?_rebuild_of_not_mem hp

/-- The list has the flows of a document: each once, at its place and with its own id as the root,
in the order in which the shape of the document has the places. -/
structure ListsFlows (d : Document) (refs : List FlowRef) : Prop where
  mem_iff : ∀ ref, ref ∈ refs ↔ d.flowAt? ref.place = some ref.flow ∧ ref.root = ref.flow.id
  places : refs.map (·.place) = placesOf d.shape
  nodup : (refs.map (·.place)).Nodup

/-- **Listing and rebuilding are inverse to each other**: every flow is listed, what was listed is
put back without a change, and what is put back is what is listed. -/
theorem rebuild_laws (d : Document) :
    ListsFlows d d.flowRefs ∧ d.rebuild? d.flowRefs = some d ∧
      (∀ refs, Covers d refs → RebuiltInFull d refs) ∧
        ∀ refs, refs.map (·.place) ⊆ d.places → RebuiltInPart d refs := by
  refine ⟨⟨fun _ => mem_flowRefs, place_flowRefs d, nodup_place_flowRefs d⟩, ?_,
    fun _ => rebuiltInFull, fun _ => rebuiltInPart⟩
  rw [rebuild?_of_subset (List.Subset.refl _), rebuild_flowRefs]

theorem rebuild_laws_talk :
    Covers talk talk.qualified.reverse ∧ RebuiltInFull talk talk.qualified.reverse := by
  have h : Covers talk talk.qualified.reverse := by
    rw [Covers, List.map_reverse, place_qualified]
    exact List.reverse_perm _
  exact ⟨h, (rebuild_laws talk).2.2.1 _ h⟩

end SvgDeck
