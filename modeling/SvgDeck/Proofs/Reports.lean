/-
What is reported.

Nothing that goes wrong should leave the author without a report.  A build keeps to this
unless it is stopped by one of the things that `BuildEscapes` lists (`buildReports_iff`),
and the command that builds, unless its request is (`runReports_iff`).
`reports_iff_not_escapes` puts this together with what is known of loading a document;
`monthTalk` is a folder whose author sees no report.
-/
import SvgDeck.Proofs.Commands
import SvgDeck.Proofs.Escape

namespace SvgDeck

namespace CommandLine

variable {w : Workspace} {folder : Path} {r : BuildRequest}

/-! ### The end of a run -/

/-- A command ends well or with a report. -/
def Output.Reports (o : Output) : Prop :=
  o.code = 0 ∨
    (o.code = 1 ∧ ∃ (log : Text) (cause : Cause),
      o.err = log ++ "Error: " ++ cause.report.text ++ "\n")

theorem finish_reports_iff {α : Type} {greeting : Text} {action : Run α} {done : α → Text} :
    (∃ o, finish r greeting action done = .ok o ∧ o.Reports) ↔ ¬ Escapes action.outcome := by
  constructor
  · rintro ⟨o, ho, _⟩ ⟨f, hf, hne⟩
    rw [finish_eq_error.mpr ⟨hf, hne⟩] at ho
    cases ho
  · intro h
    rw [finish]
    rcases reports_iff.mpr h with ⟨a, ha⟩ | ⟨cause, hcause⟩
    · rw [ha]
      exact ⟨_, rfl, Or.inl rfl⟩
    · rw [hcause]
      exact ⟨_, rfl, Or.inr ⟨rfl, _, cause, rfl⟩⟩

/-! ### Builds and runs -/

section Runs

variable [DataReader]

/-- A build writes the page, or a cause is reported. -/
def BuildReports (w : Workspace) (folder : Path) : Prop :=
  (∃ page, (SvgDeck.build w folder).2.outcome = .ok page ∧
    WritesPage w folder page (SvgDeck.build w folder).1) ∨
  ∃ cause, (SvgDeck.build w folder).2.outcome = .error (.reported cause)

theorem buildReports_iff : BuildReports w folder ↔ ¬ BuildEscapes w folder := by
  rw [← build_escapes_iff, ← reports_iff]
  refine or_congr_left (exists_congr fun page => ?_)
  exact and_iff_left_of_imp writesPage_of_build

/-- A request is stopped without a report: already the path of the folder does not stand for bytes,
or what is done with the folder is stopped. -/
def RequestEscapes (w : Workspace) (r : BuildRequest) : Prop :=
  ¬ r.folder.IsNamed ∨ (r.seed = true ∧ SeedEscapes w r.folder) ∨
    (r.seed = false ∧ BuildEscapes w r.folder)

/-- Arguments that can be read lead to code 0, or to code 1 and a report. -/
def RunReports (w : Workspace) (arguments : List Text) : Prop :=
  ∀ r, Asks arguments r → ∃ o, (build w arguments).2 = .ok o ∧ o.Reports

theorem run_reports_iff : (∃ o, (r.run w).2 = .ok o ∧ o.Reports) ↔ ¬ RequestEscapes w r := by
  by_cases hnamed : r.folder.IsNamed
  case neg =>
    obtain ⟨fault, hrun⟩ := run_of_not_isNamed (w := w) hnamed
    rw [hrun]
    simp [RequestEscapes, hnamed]
  cases hseed : r.seed with
  | true =>
    obtain ⟨greeting, hrun⟩ := run_of_seed (w := w) hnamed hseed
    rw [hrun, finish_reports_iff, seed_escapes_iff]
    simp [RequestEscapes, hnamed, hseed]
  | false =>
    obtain ⟨greeting, hrun⟩ := run_of_build (w := w) hnamed hseed
    rw [hrun, finish_reports_iff, build_escapes_iff]
    simp [RequestEscapes, hnamed, hseed]

theorem runReports_iff {arguments : List Text} :
    RunReports w arguments ↔ ¬ ∃ r, Asks arguments r ∧ RequestEscapes w r := by
  constructor
  · rintro h ⟨r, hasks, hescapes⟩
    have hreports := h r hasks
    rw [build_of_asks hasks, run_reports_iff] at hreports
    exact hreports hescapes
  · intro h r hasks
    rw [build_of_asks hasks, run_reports_iff]
    exact fun hescapes => h ⟨r, hasks, hescapes⟩

/-- Everything fatal is reported, up to the exceptions that `BuildEscapes`, `SeedEscapes` and
`BreaksDown` list. -/
theorem reports_iff_not_escapes (w : Workspace) :
    (∀ folder, BuildReports w folder ↔ ¬ BuildEscapes w folder) ∧
    (∀ p, w.stands p = true → (LoadReports (loadDocument w p).outcome ↔
      w.entry p ≠ .ok .folder ∧ ¬ BreaksDown w p)) ∧
    ∀ arguments, RunReports w arguments ↔ ¬ ∃ r, Asks arguments r ∧ RequestEscapes w r :=
  ⟨fun _ => buildReports_iff, fun _ hs => loadDocument_reports_iff hs, fun _ => runReports_iff⟩

end Runs

theorem reports_iff_not_escapes_plainTalk :
    plainTalk.stands ((Path.ofText "talk").child "talk.yml") = true ∧
      LoadReports (loadDocument plainTalk ((Path.ofText "talk").child "talk.yml")).outcome := by
  have hs : plainTalk.stands ((Path.ofText "talk").child "talk.yml") = true := by
    decide +kernel
  refine ⟨hs, ((reports_iff_not_escapes plainTalk).2.1 _ hs).mpr ⟨by decide +kernel, ?_⟩⟩
  rintro ⟨bytes, b, hfile, hread⟩
  have hgood : (plainTalk.read ((Path.ofText "talk").child "talk.yml")).toOption.map
      (fun bytes => isBreakdown (DataReader.read bytes)) = some false := by
    decide +kernel
  rw [Workspace.read_eq_ok.mpr hfile, Except.toOption, Option.map_some,
    isBreakdown_eq_true.mpr ⟨b, hread⟩] at hgood
  cases hgood

/-! ### A month that there is not -/

/-- A folder whose document holds what looks like a date. -/
def monthTalk : Workspace where
  entries := [(["talk"], .folder), (["talk", "talk.yml"], fileOf "day: 2020-13-01\n")]
  current := []

theorem monthTalk_escapes : BuildEscapes monthTalk (.ofText "talk") := by
  have hfile : monthTalk.entry ((Path.ofText "talk").child "talk.yml") =
      .ok (.file ((Text.ofString "day: 2020-13-01\n").flatMap Utf8.encodeCodePoint)) := by
    decide +kernel
  have honly : documentNames monthTalk (.ofText "talk") = .ok [Text.ofString "talk.yml"] :=
    toOption_eq_some.mp (by decide +kernel)
  -- There is no thirteenth month.
  have hread : ∃ b, readYaml ((Text.ofString "day: 2020-13-01\n").flatMap Utf8.encodeCodePoint) =
      .error (.breakdown b) := isBreakdown_eq_true.mp (by decide +kernel)
  obtain ⟨b, hread⟩ := hread
  exact .document (by decide +kernel) honly ⟨_, b, hfile, hread⟩

/-- The author of this folder sees no report. -/
theorem monthTalk_not_reports : ¬ BuildReports monthTalk (.ofText "talk") := by
  intro h
  exact buildReports_iff.mp h monthTalk_escapes

end CommandLine

end SvgDeck
