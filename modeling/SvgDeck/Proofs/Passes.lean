/-
Runs of passes over a document and a list of its flows.

Passes may come in any order and number, so the list and the document drift apart: the list
may be of an earlier document, it may miss flows or have some of them twice, and ids may be
qualified several times over.  What holds all along is that the list fits the document
(`Fits`): each entry has a place there, under an id of the right form, and entries for one
place are the same.

* `Pass.exists_run` — a pass has a result and keeps what is kept;
* `exists_runPasses` — so do passes in sequence;
* `runPasses_sound` — what is known of a valid document after any passes.
-/
import SvgDeck.Proofs.Rebuild
import SvgDeck.Proofs.Verdict

namespace SvgDeck

/-! ### Passes -/

/-- A document, and the list of flows that passes work on. -/
structure Draft where
  document : Document
  refs : List FlowRef

inductive Pass where
  /-- Lists the flows of the document. -/
  | list
  /-- Lists the flows of the document under their qualified ids. -/
  | qualify
  | centre
  | strip
  | reverse
  /-- Adds a copy of an entry at the end, if there is one at this position. -/
  | copy (i : Nat)
  | drop (i : Nat)
  /-- Puts the listed flows into the document. -/
  | rebuild

/-- The draft after a pass; none if a flow has no place to be put back into. -/
def Pass.run : Pass → Draft → Option Draft
  | .list, s => some { s with refs := s.document.flowRefs }
  | .qualify, s => some { s with refs := s.document.qualified }
  | .centre, s => some { s with refs := mapFlows Flow.centre s.refs }
  | .strip, s => some { s with refs := mapFlows Flow.withoutDirectives s.refs }
  | .reverse, s => some { s with refs := s.refs.reverse }
  | .copy i, s => some { s with refs := s.refs ++ s.refs[i]?.toList }
  | .drop i, s => some { s with refs := s.refs.eraseIdx i }
  | .rebuild, s => (s.document.rebuild? s.refs).map fun d => { s with document := d }

/-- The draft after passes in sequence. -/
def runPasses (passes : List Pass) (s : Draft) : Option Draft :=
  passes.foldlM (fun s p => p.run s) s

theorem runPasses_cons (p : Pass) (passes : List Pass) (s : Draft) :
    runPasses (p :: passes) s = (p.run s).bind (runPasses passes) := rfl

/-! ### Ids -/

theorem isFlowIdPart_of_isDigit {c : Char} (h : c.isDigit = true) :
    isFlowIdPart (CodePoint.ofChar c) = true := by
  obtain ⟨hlow, hhigh⟩ : '0'.val ≤ c.val ∧ c.val ≤ '9'.val := by simpa [Char.isDigit] using h
  have hdigit : (CodePoint.ofChar c).isAsciiDigit = true :=
    Bool.and_eq_true_iff.mpr ⟨decide_eq_true (UInt32.le_iff_toNat_le.mp hlow),
      decide_eq_true (UInt32.le_iff_toNat_le.mp hhigh)⟩
  simp [isFlowIdPart, CodePoint.isAsciiAlphanumeric, hdigit]

theorem isFlowIdPart_ofNat (n : Nat) : (Text.ofNat n).all isFlowIdPart = true := by
  rw [List.all_eq_true]
  refine List.forall_mem_map.mpr fun c hc => isFlowIdPart_of_isDigit ?_
  exact Nat.isDigit_of_mem_toDigits (by decide) (by decide) hc

theorem isFlowId_qualify {root : Text} (h : isFlowId root = true) (n : Nat) :
    isFlowId (qualify root n) = true := by
  have hq : qualifier.all isFlowIdPart = true := by decide
  simp only [isFlowId, Bool.and_eq_true, decide_eq_true_eq] at h ⊢
  refine ⟨?_, ?_⟩
  · simp [qualify, h.1]
  · rw [qualify, List.all_append, List.all_append, h.2, hq, isFlowIdPart_ofNat]
    rfl

/-! ### Lists that fit a document -/

theorem id_centre (f : Flow) : f.centre.id = f.id := by
  rw [Flow.centre]
  split <;> rfl

/-- The entries have places in the document and ids of the right form, and those for one place are
the same. -/
structure Fits (refs : List FlowRef) (d : Document) : Prop where
  placed : ∀ ref ∈ refs, ref.place ∈ d.places
  ids : ∀ ref ∈ refs, isFlowId ref.flow.id = true
  coherent : Coherent refs

section Fits

variable {d d' : Document} {refs refs' : List FlowRef}

theorem fits_nil (d : Document) : Fits [] d :=
  ⟨fun _ h => absurd h List.not_mem_nil, fun _ h => absurd h List.not_mem_nil,
    fun _ h => absurd h List.not_mem_nil⟩

theorem fits_flowRefs (hd : ∀ f ∈ d.flows, isFlowId f.id = true) : Fits d.flowRefs d := by
  constructor
  case placed => exact fun ref href => List.mem_map_of_mem href
  case ids => exact fun ref href => hd _ (mem_flows.mpr ⟨_, (mem_flowRefs.mp href).1⟩)
  case coherent => exact coherent_of_nodup (nodup_place_flowRefs d)

theorem fits_qualified (hd : ∀ f ∈ d.flows, isFlowId f.id = true) : Fits d.qualified d := by
  constructor
  case placed =>
    intro ref href
    rw [Document.places, ← place_qualified]
    exact List.mem_map_of_mem href
  case ids =>
    intro ref href
    obtain ⟨i, hi, rfl⟩ := List.mem_mapIdx.mp href
    -- The root is the id that the flow has in the document.
    obtain ⟨hflow, hroot⟩ := mem_flowRefs.mp (List.getElem_mem hi)
    refine isFlowId_qualify ?_ _
    rw [hroot]
    exact hd _ (mem_flows.mpr ⟨_, hflow⟩)
  case coherent =>
    refine coherent_of_nodup ?_
    rw [place_qualified]
    exact nodup_place_flowRefs d

theorem Fits.mono (h : Fits refs d) (hsub : refs' ⊆ refs) : Fits refs' d :=
  ⟨fun ref href => h.placed ref (hsub href), fun ref href => h.ids ref (hsub href),
    h.coherent.mono hsub⟩

/-- A change of the flows that leaves their ids alone. -/
theorem Fits.mapFlows {change : Flow → Flow} (hid : ∀ f, (change f).id = f.id)
    (h : Fits refs d) : Fits (mapFlows change refs) d := by
  constructor
  case placed => exact List.forall_mem_map.mpr h.placed
  case ids => exact List.forall_mem_map.mpr fun ref href => (hid ref.flow).symm ▸ h.ids ref href
  case coherent =>
    refine List.forall_mem_map.mpr fun r hr => List.forall_mem_map.mpr fun r' hr' hplace => ?_
    rw [h.coherent r hr r' hr' hplace]

/-- Which places there are is all that counts of the document. -/
theorem Fits.of_places (h : Fits refs d) (hplaces : d'.places = d.places) : Fits refs d' :=
  ⟨fun ref href => hplaces.symm ▸ h.placed ref href, h.ids, h.coherent⟩

theorem Fits.rebuild? (h : Fits refs d) : d.rebuild? refs = some (d.rebuild refs) :=
  rebuild?_eq_some.mpr ⟨h.placed, rfl⟩

end Fits

/-! ### What passes keep -/

/-- What holds of a draft that was made of the document `start`. -/
structure Kept (start : Document) (s : Draft) : Prop where
  settings : s.document.settings = start.settings
  shape : s.document.shape = start.shape
  ids : ∀ f ∈ s.document.flows, isFlowId f.id = true
  fits : Fits s.refs s.document

section Kept

variable {start : Document} {s : Draft}

/-- A pass that changes the list only. -/
theorem Kept.withRefs (h : Kept start s) {refs : List FlowRef} (hfits : Fits refs s.document) :
    Kept start { s with refs := refs } :=
  ⟨h.settings, h.shape, h.ids, hfits⟩

theorem Kept.rebuild (h : Kept start s) :
    Kept start { s with document := s.document.rebuild s.refs } := by
  constructor
  case settings => exact (settings_rebuild _ _).trans h.settings
  case shape => exact (shape_rebuild _ _).trans h.shape
  case ids =>
    intro f hf
    obtain ⟨p, hp⟩ := mem_flows.mp hf
    rcases flowAt?_rebuild_eq_some hp with ⟨ref, href, _, rfl⟩ | ⟨_, hold⟩
    · exact h.fits.ids ref href
    · exact h.ids f (mem_flows.mpr ⟨p, hold⟩)
  case fits => exact h.fits.of_places (places_rebuild _ _)

/-- A pass has a result and keeps what is kept. -/
theorem Pass.exists_run (p : Pass) (h : Kept start s) : ∃ s', p.run s = some s' ∧ Kept start s' := by
  cases p with
  | list => exact ⟨_, rfl, h.withRefs (fits_flowRefs h.ids)⟩
  | qualify => exact ⟨_, rfl, h.withRefs (fits_qualified h.ids)⟩
  | centre => exact ⟨_, rfl, h.withRefs (h.fits.mapFlows id_centre)⟩
  | strip => exact ⟨_, rfl, h.withRefs (h.fits.mapFlows fun _ => rfl)⟩
  | reverse => exact ⟨_, rfl, h.withRefs (h.fits.mono fun _ => List.mem_reverse.mp)⟩
  | copy i =>
    have hsub : s.refs ++ s.refs[i]?.toList ⊆ s.refs := by
      refine List.append_subset.mpr ⟨List.Subset.refl _, fun ref href => ?_⟩
      exact List.mem_of_getElem? (Option.mem_toList.mp href)
    exact ⟨_, rfl, h.withRefs (h.fits.mono hsub)⟩
  | drop i => exact ⟨_, rfl, h.withRefs (h.fits.mono fun _ => List.mem_of_mem_eraseIdx)⟩
  | rebuild =>
    refine ⟨_, ?_, h.rebuild⟩
    rw [Pass.run, h.fits.rebuild?, Option.map_some]

/-- Passes in sequence have a result and keep what is kept. -/
theorem exists_runPasses (passes : List Pass) (h : Kept start s) :
    ∃ s', runPasses passes s = some s' ∧ Kept start s' := by
  induction passes generalizing s with
  | nil => exact ⟨s, rfl, h⟩
  | cons p passes ih =>
    obtain ⟨s₁, hrun, hkept⟩ := p.exists_run h
    obtain ⟨s₂, hruns, hkept⟩ := ih hkept
    exact ⟨s₂, by rw [runPasses_cons, hrun, Option.bind_some, hruns], hkept⟩

end Kept

/-! ### Soundness -/

/-- What is known of a draft that was made of the document `start`: the document has kept its form,
and its list can be put back, in any order and with repetitions. -/
structure Draft.IsSound (start : Document) (s : Draft) : Prop where
  placed : ∀ ref ∈ s.refs, ∃ f, s.document.flowAt? ref.place = some f
  returns : s.document.rebuild? s.refs = some (s.document.rebuild s.refs)
  settings : s.document.settings = start.settings
  shape : s.document.shape = start.shape
  ids : ∀ f ∈ s.document.flows, isFlowId f.id = true
  listedIds : ∀ ref ∈ s.refs, isFlowId ref.flow.id = true
  coherent : ∀ r ∈ s.refs, ∀ r' ∈ s.refs, r.place = r'.place → r.flow = r'.flow ∧ r.root = r'.root
  reversed : s.document.rebuild s.refs.reverse = s.document.rebuild s.refs
  copied : ∀ copies, copies ⊆ s.refs →
    s.document.rebuild (s.refs ++ copies) = s.document.rebuild s.refs

theorem Kept.isSound {start : Document} {s : Draft} (h : Kept start s) : s.IsSound start := by
  constructor
  case placed => exact fun ref href => mem_places.mp (h.fits.placed ref href)
  case returns => exact h.fits.rebuild?
  case settings => exact h.settings
  case shape => exact h.shape
  case ids => exact h.ids
  case listedIds => exact h.fits.ids
  case coherent =>
    intro r hr r' hr' hplace
    rw [h.fits.coherent r hr r' hr' hplace]
    exact ⟨rfl, rfl⟩
  case reversed => exact rebuild_congr h.fits.coherent fun _ => List.mem_reverse
  case copied =>
    intro copies hsub
    refine rebuild_congr h.fits.coherent fun r => ?_
    rw [List.mem_append, or_iff_left_of_imp fun hr => hsub hr]

/-- **Every run of passes over a valid document has a result**, and its list still fits its
document. -/
theorem runPasses_sound {d : Document} (hd : d.IsValid) (passes : List Pass) :
    ∃ s, runPasses passes ⟨d, []⟩ = some s ∧ s.IsSound d := by
  obtain ⟨s, hrun, hkept⟩ := exists_runPasses passes (s := ⟨d, []⟩) ⟨rfl, rfl, hd.id, fits_nil d⟩
  exact ⟨s, hrun, hkept.isSound⟩

theorem runPasses_sound_talk :
    talk.IsValid ∧
    ∃ s, runPasses [.qualify, .centre, .copy 0, .reverse, .rebuild, .qualify, .drop 1, .rebuild]
      ⟨talk, []⟩ = some s ∧ s.IsSound talk :=
  ⟨talk_isValid, runPasses_sound talk_isValid _⟩

end SvgDeck
