/-
What the files of the starter say.

The text of the document is read as the data `starterData`, and these are accepted as the document
`Document.starter` (`loadData_starterDocument`, `check_starterData`).  Both canvases have a body
(`starterCanvas_readable`), so the starter compiles wherever its pictures are in place
(`exists_compiled_starter`).
-/
import SvgDeck.Proofs.Starter
import SvgDeck.Proofs.Utf8
import SvgDeck.Proofs.Verdict

namespace SvgDeck

/-- A string that is spelled out is the text of its characters; nothing has to be decoded. -/
theorem Text.ofString_ofList (l : List Char) :
    Text.ofString (String.ofList l) = l.map CodePoint.ofChar := by
  rw [Text.ofString, String.toList_ofList]

/-! ### Plain data -/

namespace Value

mutual

/-- Whether two values are the same texts, whole numbers and truth values, in the same lists and
mappings. -/
def isSame : Value → Value → Bool
  | .bool a, .bool b => a = b
  | .int m, .int n => m = n
  | .text s, .text t => s = t
  | .list l, .list m => areSame l m
  | .mapping l, .mapping m => haveSame l m
  | _, _ => false

def areSame : List Value → List Value → Bool
  | [], [] => true
  | a :: l, b :: m => isSame a b && areSame l m
  | _, _ => false

def haveSame : List (Value × Value) → List (Value × Value) → Bool
  | [], [] => true
  | (k, a) :: l, (k', b) :: m => isSame k k' && isSame a b && haveSame l m
  | _, _ => false

end

mutual

theorem eq_of_isSame {a b : Value} (h : isSame a b = true) : a = b := by
  unfold isSame at h
  split at h
  case h_1 => rw [of_decide_eq_true h]
  case h_2 => rw [of_decide_eq_true h]
  case h_3 => rw [of_decide_eq_true h]
  case h_4 l m => rw [eq_of_areSame h]
  case h_5 l m => rw [eq_of_haveSame h]
  case h_6 => cases h
termination_by sizeOf a

theorem eq_of_areSame {l m : List Value} (h : areSame l m = true) : l = m := by
  unfold areSame at h
  split at h
  case h_1 => rfl
  case h_2 a l b m =>
    rw [Bool.and_eq_true] at h
    rw [eq_of_isSame h.1, eq_of_areSame h.2]
  case h_3 => cases h
termination_by sizeOf l

theorem eq_of_haveSame {l m : List (Value × Value)} (h : haveSame l m = true) : l = m := by
  unfold haveSame at h
  split at h
  case h_1 => rfl
  case h_2 k a l k' b m =>
    rw [Bool.and_eq_true, Bool.and_eq_true] at h
    rw [eq_of_isSame h.1.1, eq_of_isSame h.1.2, eq_of_haveSame h.2]
  case h_3 => cases h
termination_by sizeOf l

end

end Value

/-! ### The document -/

/-- The data that the starter is written from. -/
def starterData : Value :=
  .mapping
    [(.text "min", .text "1em"), (.text "max", .text "2.5em"),
      (.text "svgPaneBackgroundColor", .text "#ffffff"),
      (.text "textPaneBackgroundColor", .text "#f4f4f4"),
      (.text "sections", .list [.mapping
        [(.text "flows", .list
          [.mapping
            [(.text "html", .text "<b>Welcome.</b> This flow shows <i>intro.svg</i>."),
              (.text "seconds", .int 2), (.text "id", .text "intro"),
              (.text "centered", .bool true)],
          .mapping
            [(.text "html", .text "The same SVG again, zooming into its centre."),
              (.text "seconds", .int 2), (.text "id", .text "intro"),
              (.text "focus", .text "0,0,1000,1000;250,250,500,500 0 2")]]),
          (.text "subsections", .list [.mapping
            [(.text "flows", .list [.mapping
              [(.text "html", .text "A sub-flow highlighting two regions of <i>detail.svg</i>."),
                (.text "seconds", .int 2), (.text "id", .text "detail"),
                (.text "highlight",
                  .text "100,100,300,200;600,600,300,200 #ea4335 4 0;1 0 1")]])]])]])]

def twoSeconds : Binary64 := .ofRatio false 2 1

/-- The document that the data stand for. -/
def Document.starter : Document where
  settings := ⟨"1em", "2.5em", some "#ffffff", some "#f4f4f4", none, none, none, none, none, none⟩
  sections :=
    [⟨[⟨"intro", "<b>Welcome.</b> This flow shows <i>intro.svg</i>.", twoSeconds, some true, none,
        none⟩,
      ⟨"intro", "The same SVG again, zooming into its centre.", twoSeconds, none,
        some "0,0,1000,1000;250,250,500,500 0 2", none⟩],
      some [⟨[⟨"detail", "A sub-flow highlighting two regions of <i>detail.svg</i>.", twoSeconds,
        none, none, some "100,100,300,200;600,600,300,200 #ea4335 4 0;1 0 1"⟩]⟩]⟩]

theorem load_starterDocument : Yaml.load starterDocument = .ok starterData := by
  have h : (Yaml.load starterDocument).toOption.any (·.isSame starterData) = true := by
    simp only [starterDocument, starterData, Text.ofLines, List.map_cons, List.map_nil]
    repeat rw [Text.ofString_ofList]
    decide +kernel
  obtain ⟨data, hdata, hsame⟩ := (Option.any_eq_true _ _).mp h
  rw [Value.eq_of_isSame hsame] at hdata
  exact toOption_eq_some.mp hdata

theorem readYaml_of_load {bytes : List UInt8} {text : Text} {data : Value}
    (htext : Utf8.decodeBlockLines bytes = .ok text) (hdata : Yaml.load text = .ok data) :
    readYaml bytes = .ok data := by
  rw [readYaml, htext]
  simp only [hdata]

/-- Wherever the document stands, it is read as its data. -/
theorem loadData_starterDocument (p : Path) :
    loadData p (starterDocument.flatMap Utf8.encodeCodePoint) = .ok starterData := by
  have hplain : CodePoint.ofChar '\r' ∉ starterDocument ∧
      (starterDocument.flatMap Utf8.encodeCodePoint).length ≤ Utf8.blockSize := by
    simp only [starterDocument, Text.ofLines, List.map_cons, List.map_nil]
    repeat rw [Text.ofString_ofList]
    decide +kernel
  have htext := Utf8.decodeBlockLines_of_isUnicode isUnicode_starterDocument hplain.1 hplain.2
  have hread : DataReader.read (starterDocument.flatMap Utf8.encodeCodePoint) = .ok starterData :=
    readYaml_of_load htext load_starterDocument
  rw [loadData, hread]

/-- The data pass the schema. -/
theorem check_starterData : Document.check starterData = .valid .starter := by
  rfl

theorem isUnicode_starter : ∀ flow ∈ Document.starter.flows, flow.html.IsUnicode := by
  intro flow hflow
  exact Text.any_isSurrogate_eq_false.mp (by revert flow; decide)

/-! ### The pictures -/

theorem pictures_starter : Document.starter.pictures = (["intro", "detail"] : List Text) := by
  have hids : Document.starter.flows.map (·.id) = (["intro", "intro", "detail"] : List Text) := rfl
  rw [Document.pictures, hids]
  decide

theorem isFlowId_of_mem_starter {root : Text} (h : root ∈ Document.starter.pictures) :
    isFlowId root = true := by
  rw [pictures_starter] at h
  revert root
  decide

/-- A canvas is read back, and it has a body. -/
theorem starterCanvas_readable : ∀ root ∈ Document.starter.pictures,
    (starterCanvas root).IsUnicode ∧ CodePoint.ofChar '\r' ∉ starterCanvas root ∧
      (body? (starterCanvas root)).isSome = true := by
  rw [pictures_starter]
  simp only [starterCanvas, Text.ofLines, List.map_cons, List.map_nil]
  repeat rw [Text.ofString_ofList]
  simp only [← Text.any_isSurrogate_eq_false]
  decide +kernel

/-- The canvases have bodies where they stand. -/
theorem allUsable_starter {w : Workspace} {folder : Path}
    (h : ∀ root ∈ Document.starter.pictures,
      w.entry (assetPath folder root) = .ok (fileOf (starterCanvas root))) :
    AllUsable w folder .starter := by
  intro root hroot
  obtain ⟨hunicode, hreturn, hbody⟩ := starterCanvas_readable root hroot
  obtain ⟨body, hbody⟩ := Option.isSome_iff_exists.mp hbody
  exact ⟨body, h root hroot, Utf8.decodeLines_of_isUnicode hunicode hreturn, hbody⟩

theorem not_badAt_starter : ∀ x ∈ Document.starter.numbered, ¬ BadAt x := by
  have hok : ∀ x ∈ Document.starter.numbered, (x.1.qualifiedAt x.2).animation.isOk = true := by
    decide +kernel
  rintro x hx hbad
  obtain ⟨f, hf⟩ := fails_animation_iff.mpr hbad
  have hx := hok x hx
  rw [hf] at hx
  cases hx

/-- **The starter compiles** where its pictures are in place. -/
theorem exists_compiled_starter {w : Workspace} {folder : FolderName}
    (h : ∀ root ∈ Document.starter.pictures,
      w.entry (assetPath folder.path root) = .ok (fileOf (starterCanvas root))) :
    ∃ b, (compileDocument w .starter folder).outcome = .ok b :=
  outcome_of_compiles (allUsable_starter h) not_badAt_starter

end SvgDeck
