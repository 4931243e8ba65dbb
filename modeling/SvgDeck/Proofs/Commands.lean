/-
What the commands leave behind.

A build is all or nothing (`BuildsAllOrNothing`): one that fails changes nothing, and one
that succeeds changes the page of its folder only.  For the command that builds, this is
`RunsAllOrNothing`: every end but code 0 leaves the workspace as it was.  The command that
checks has no way to change a workspace.

`allOrNothing_iff` says when these hold: always, unless a page without UTF-8 form would be
written where something but an empty file stands, since the place is emptied before the
failure (`SpoilsPage`).  `surrogateTalk` is such a workspace.
-/
import SvgDeck.CommandLine.Build
import SvgDeck.CommandLine.Check
import SvgDeck.Proofs.Build
import SvgDeck.Proofs.Bundle
import SvgDeck.Proofs.Starter

namespace SvgDeck

variable {w : Workspace} {folder : Path} {f : Failure}

/-! ### One build -/

section Build

variable [DataReader]

/-- A build that fails changes nothing, and one that succeeds writes the page and nothing else. -/
structure BuildsAllOrNothing (w : Workspace) (folder : Path) : Prop where
  failed : ∀ f, (build w folder).2.outcome = .error f → w.Agree (build w folder).1
  done : ∀ page, (build w folder).2.outcome = .ok page →
    WritesPage w folder page (build w folder).1

theorem SpoilsPage.outcome (h : SpoilsPage w folder) :
    ∃ u, (build w folder).2.outcome = .error (.unencodable u) := by
  obtain ⟨name, d, b, place, hc, hw, _, hbad⟩ := h
  obtain ⟨u, hu, _⟩ := build_of_not_isUnicode hc hw (fun ht => hbad (hc.isUnicode_iff.mp ht))
  exact ⟨u, hu⟩

theorem SpoilsPage.isNamed (h : SpoilsPage w folder) : folder.IsNamed := by
  obtain ⟨name, d, b, place, hc, _⟩ := h
  exact Workspace.isNamed_of_stands (Workspace.stands_eq_true.mpr ⟨_, hc.found⟩)

theorem buildsAllOrNothing_iff : BuildsAllOrNothing w folder ↔ ¬ SpoilsPage w folder := by
  constructor
  · intro h hspoils
    obtain ⟨u, hu⟩ := hspoils.outcome
    exact (agree_build_iff hu).mp (h.failed _ hu) hspoils
  · intro h
    exact ⟨fun f hf => (agree_build_iff hf).mpr h, fun page hpage => writesPage_of_build hpage⟩

end Build

namespace CommandLine

/-! ### The end of a run -/

variable {α : Type} {r : BuildRequest} {greeting : Text} {action : Run α} {done : α → Text}
  {o : Output}

theorem finish_eq_ok (h : finish r greeting action done = .ok o) :
    (o.code = 0 ∧ ∃ a, action.outcome = .ok a) ∨
      (o.code = 1 ∧ ∃ cause, action.outcome = .error (.reported cause)) := by
  rw [finish] at h
  cases haction : action.outcome with
  | ok a =>
    rw [haction] at h
    cases h
    exact Or.inl ⟨rfl, a, rfl⟩
  | error f =>
    rw [haction] at h
    cases f with
    | reported cause =>
      cases h
      exact Or.inr ⟨rfl, cause, rfl⟩
    | _ => cases h

theorem finish_eq_error :
    finish r greeting action done = .error f ↔
      action.outcome = .error f ∧ f.isReported = false := by
  rw [finish]
  cases haction : action.outcome with
  | ok a => simp
  | error f' =>
    cases f' with
    | reported cause =>
      refine iff_of_false (by simp) ?_
      rintro ⟨hf, hne⟩
      cases hf
      cases hne
    | _ =>
      simp only [Except.error.injEq]
      refine ⟨?_, fun h => h.1⟩
      rintro rfl
      exact ⟨rfl, rfl⟩

/-! ### One run of the command that builds -/

/-- The arguments can be read, and this is what they ask for. -/
def Asks (arguments : List Text) (r : BuildRequest) : Prop :=
  ∃ events, start buildCommand arguments = .ok events ∧ r = BuildRequest.ofEvents events

/-- A request for the starter is done as a whole or not at all. -/
theorem seed_agree_or_adds (w : Workspace) (folder : Path) :
    (∀ f, (seed w folder).2.outcome = .error f → w.Agree (seed w folder).1) ∧
      ∀ paths, (seed w folder).2.outcome = .ok paths → AddsStarter w folder (seed w folder).1 := by
  cases hempty : (requireEmptyFolder w folder).outcome with
  | error f =>
    obtain ⟨hafter, houtcome⟩ := seed_of_error hempty
    rw [hafter, houtcome]
    refine ⟨fun _ _ => Workspace.Agree.refl w, ?_⟩
    rintro paths hcontra
    cases hcontra
  | ok u =>
    obtain ⟨hfolder, he⟩ := requireEmptyFolder_eq_ok.mp hempty
    by_cases hr : w.Refuses (folder.child "slideshow.yml")
    · obtain ⟨hafter, houtcome⟩ := seed_of_refused hfolder he hr
      rw [hafter, houtcome]
      refine ⟨fun _ _ => Workspace.Agree.refl w, ?_⟩
      rintro paths hcontra
      cases hcontra
    · obtain ⟨houtcome, hadds⟩ := seed_of_not_refused hfolder he hr
      refine ⟨?_, fun _ _ => hadds⟩
      rintro f hcontra
      rw [houtcome] at hcontra
      cases hcontra

section Run

variable [DataReader]

/-- A request that succeeds adds the starter or writes the page, and does nothing else. -/
def Achieves (w : Workspace) (r : BuildRequest) (w' : Workspace) : Prop :=
  (r.seed = true ∧ AddsStarter w r.folder w') ∨
    (r.seed = false ∧ ∃ page, WritesPage w r.folder page w')

/-- Every end but code 0 leaves the workspace as it was; at code 0 what was asked for is achieved,
or there was nothing but help to print. -/
structure RunsAllOrNothing (w : Workspace) (arguments : List Text) : Prop where
  escaped : ∀ f, (build w arguments).2 = .error f → w.Agree (build w arguments).1
  failed : ∀ o, (build w arguments).2 = .ok o → o.code ≠ 0 → w.Agree (build w arguments).1
  done : ∀ o, (build w arguments).2 = .ok o → o.code = 0 →
    (∃ r, Asks arguments r ∧ Achieves w r (build w arguments).1) ∨
      ((∀ r, ¬ Asks arguments r) ∧ w.Agree (build w arguments).1)

theorem build_of_not_asks {arguments : List Text} (h : ∀ r, ¬ Asks arguments r) :
    ∃ o, build w arguments = (w, .ok o) := by
  rw [build]
  cases hstart : start buildCommand arguments with
  | ok events => exact absurd ⟨events, hstart, rfl⟩ (h _)
  | error o => exact ⟨o, rfl⟩

theorem build_of_asks {arguments : List Text} (h : Asks arguments r) :
    build w arguments = r.run w := by
  obtain ⟨events, hstart, rfl⟩ := h
  rw [build, hstart]

/-- A folder whose path does not stand for bytes cannot even be greeted. -/
theorem run_of_not_isNamed (h : ¬ r.folder.IsNamed) :
    ∃ fault, r.run w = (w, .error (.path (.unnameable fault) r.folder.text)) := by
  obtain ⟨f, hf⟩ := Workspace.fails_shown_iff.mpr h
  obtain ⟨fault, rfl⟩ := Workspace.shown_fault hf
  exact ⟨fault, by rw [BuildRequest.run, hf]⟩

theorem run_of_seed (hnamed : r.folder.IsNamed) (h : r.seed = true) :
    ∃ greeting, r.run w =
      ((seed w r.folder).1, finish r greeting (seed w r.folder).2 seededText) := by
  rw [BuildRequest.run, Workspace.shown_eq_ok.mpr ⟨hnamed, rfl⟩]
  simp only [h, if_true]
  exact ⟨_, rfl⟩

theorem run_of_build (hnamed : r.folder.IsNamed) (h : r.seed = false) :
    ∃ greeting, r.run w =
      ((SvgDeck.build w r.folder).1,
        finish r greeting (SvgDeck.build w r.folder).2 generatedText) := by
  rw [BuildRequest.run, Workspace.shown_eq_ok.mpr ⟨hnamed, rfl⟩]
  simp only [h, Bool.false_eq_true, if_false]
  exact ⟨_, rfl⟩

/-- A run keeps to all or nothing if the operation that it finishes does. -/
theorem runsAllOrNothing_of_finish {arguments : List Text} {after : Workspace}
    (hasks : Asks arguments r) (hrun : r.run w = (after, finish r greeting action done))
    (hfailed : ∀ f, action.outcome = .error f → w.Agree after)
    (hdone : ∀ a, action.outcome = .ok a → Achieves w r after) : RunsAllOrNothing w arguments := by
  have hbuild := (build_of_asks (w := w) hasks).trans hrun
  constructor
  case escaped =>
    intro f hf
    rw [hbuild] at hf ⊢
    exact hfailed f (finish_eq_error.mp hf).1
  case failed =>
    intro o ho hcode
    rw [hbuild] at ho ⊢
    rcases finish_eq_ok ho with ⟨hzero, _⟩ | ⟨_, cause, hcause⟩
    · exact absurd hzero hcode
    · exact hfailed _ hcause
  case done =>
    intro o ho hcode
    rw [hbuild] at ho ⊢
    rcases finish_eq_ok ho with ⟨_, a, ha⟩ | ⟨hone, _⟩
    · exact Or.inl ⟨r, hasks, hdone a ha⟩
    · rw [hcode] at hone
      cases hone

/-- So does one that changes nothing and achieves nothing. -/
theorem runsAllOrNothing_of_same {arguments : List Text}
    (hsame : (build w arguments).1 = w)
    (hdone : (∀ r, ¬ Asks arguments r) ∨ ∃ f, (build w arguments).2 = .error f) :
    RunsAllOrNothing w arguments := by
  have hagree : w.Agree (build w arguments).1 := by
    rw [hsame]
    exact Workspace.Agree.refl w
  refine ⟨fun _ _ => hagree, fun _ _ _ => hagree, fun o ho _ => ?_⟩
  rcases hdone with hnone | ⟨f, hf⟩
  · exact Or.inr ⟨hnone, hagree⟩
  · rw [hf] at ho
    cases ho

theorem runsAllOrNothing_of_not_asks {arguments : List Text} (h : ∀ r, ¬ Asks arguments r) :
    RunsAllOrNothing w arguments := by
  obtain ⟨o, ho⟩ := build_of_not_asks (w := w) h
  exact runsAllOrNothing_of_same (by rw [ho]) (Or.inl h)

theorem runsAllOrNothing_of_not_isNamed {arguments : List Text} (hasks : Asks arguments r)
    (hnamed : ¬ r.folder.IsNamed) : RunsAllOrNothing w arguments := by
  obtain ⟨fault, hrun⟩ := run_of_not_isNamed (w := w) hnamed
  have hbuild := (build_of_asks (w := w) hasks).trans hrun
  exact runsAllOrNothing_of_same (by rw [hbuild]) (Or.inr ⟨_, by rw [hbuild]⟩)

/-- A run that ends with another code than 0 was stopped by a cause, so it changed nothing. -/
theorem agree_of_code_ne_zero {arguments : List Text} (ho : (build w arguments).2 = .ok o)
    (hcode : o.code ≠ 0) : w.Agree (build w arguments).1 := by
  by_cases hasks : ∃ r, Asks arguments r
  · obtain ⟨r, hasks⟩ := hasks
    have hbuild := build_of_asks (w := w) hasks
    by_cases hnamed : r.folder.IsNamed
    · cases hseed : r.seed with
      | true =>
        obtain ⟨greeting, hrun⟩ := run_of_seed (w := w) hnamed hseed
        rw [hbuild, hrun] at ho ⊢
        obtain ⟨cause, hcause⟩ := (finish_eq_ok ho).resolve_left (fun h => hcode h.1) |>.2
        exact (seed_agree_or_adds w r.folder).1 _ hcause
      | false =>
        obtain ⟨greeting, hrun⟩ := run_of_build (w := w) hnamed hseed
        rw [hbuild, hrun] at ho ⊢
        obtain ⟨cause, hcause⟩ := (finish_eq_ok ho).resolve_left (fun h => hcode h.1) |>.2
        refine (agree_build_iff hcause).mpr fun hspoils => ?_
        -- A page without UTF-8 form is no cause.
        obtain ⟨u, hu⟩ := hspoils.outcome
        rw [hu] at hcause
        cases hcause
    · obtain ⟨fault, hrun⟩ := run_of_not_isNamed (w := w) hnamed
      rw [hbuild, hrun] at ho
      cases ho
  · obtain ⟨o', ho'⟩ := build_of_not_asks (w := w) (not_exists.mp hasks)
    rw [ho']
    exact Workspace.Agree.refl w

theorem runsAllOrNothing_iff {arguments : List Text} :
    RunsAllOrNothing w arguments ↔
      ¬ ∃ r, Asks arguments r ∧ r.seed = false ∧ SpoilsPage w r.folder := by
  constructor
  · rintro h ⟨r, hasks, hseed, hspoils⟩
    obtain ⟨u, hu⟩ := hspoils.outcome
    obtain ⟨greeting, hrun⟩ := run_of_build (w := w) hspoils.isNamed hseed
    have hbuild := (build_of_asks (w := w) hasks).trans hrun
    -- No cause explains what spoils the page, so the run escapes, and with a change.
    have hfinish : finish r greeting (SvgDeck.build w r.folder).2 generatedText =
        .error (.unencodable u) := finish_eq_error.mpr ⟨hu, rfl⟩
    have hagree := h.escaped (.unencodable u) (by rw [hbuild, hfinish])
    rw [hbuild] at hagree
    exact (agree_build_iff hu).mp hagree hspoils
  · intro h
    by_cases hasks : ∃ r, Asks arguments r
    · obtain ⟨r, hasks⟩ := hasks
      by_cases hnamed : r.folder.IsNamed
      case neg => exact runsAllOrNothing_of_not_isNamed hasks hnamed
      cases hseed : r.seed with
      | true =>
        obtain ⟨greeting, hrun⟩ := run_of_seed (w := w) hnamed hseed
        obtain ⟨hfailed, hadds⟩ := seed_agree_or_adds w r.folder
        exact runsAllOrNothing_of_finish hasks hrun hfailed
          fun paths hpaths => Or.inl ⟨hseed, hadds paths hpaths⟩
      | false =>
        obtain ⟨greeting, hrun⟩ := run_of_build (w := w) hnamed hseed
        have hall : BuildsAllOrNothing w r.folder :=
          buildsAllOrNothing_iff.mpr fun hspoils => h ⟨r, hasks, hseed, hspoils⟩
        exact runsAllOrNothing_of_finish hasks hrun hall.failed
          fun page hpage => Or.inr ⟨hseed, page, hall.done page hpage⟩
    · exact runsAllOrNothing_of_not_asks (not_exists.mp hasks)

/-! ### Both commands -/

inductive Script where
  | build
  | check

/-- A command with the workspace that it leaves behind; the command that checks has no other than
the one it was given. -/
def Script.run : Script → Workspace → List Text → Workspace × Except Failure Output
  | .build, w, arguments => CommandLine.build w arguments
  | .check, w, arguments => (w, CommandLine.check w arguments)

/-- **Builds and commands are all or nothing**, up to one exception: a page that stands there is
emptied before it turns out that the new one has no UTF-8 form.  This is never a run that ends with
an exit code. -/
theorem allOrNothing_iff (w : Workspace) :
    (∀ folder, BuildsAllOrNothing w folder ↔ ¬ SpoilsPage w folder) ∧
    (∀ arguments, RunsAllOrNothing w arguments ↔
      ¬ ∃ r, Asks arguments r ∧ r.seed = false ∧ SpoilsPage w r.folder) ∧
    (∀ arguments o, (build w arguments).2 = .ok o → o.code ≠ 0 →
      w.Agree (build w arguments).1) ∧
    ∀ arguments, w.Agree (Script.check.run w arguments).1 :=
  ⟨fun _ => buildsAllOrNothing_iff, fun _ => runsAllOrNothing_iff,
    fun _ _ => agree_of_code_ne_zero, fun _ => Workspace.Agree.refl w⟩

end Run

/-! ### Two talks that were built before -/

/-- A talk of one flow with a text as the document has it, and the page of an earlier build. -/
def talkWith (html : String) : Workspace where
  entries :=
    [(["talk"], .folder),
      (["talk", "talk.yml"], fileOf (Text.ofLines
        ["min: 1em",
        "max: 2.5em",
        "sections:",
        "- flows:",
        "  - id: a",
        "    html: " ++ html,
        "    seconds: 2",
        ""])),
      (["talk", "a.svg"], fileOf "<svg></svg>"),
      (["talk", "talk.html"], fileOf "old page")]
  current := []

def plainTalk : Workspace := talkWith "One."

/-- A talk that shows half of a character. -/
def surrogateTalk : Workspace := talkWith "\"\\ud800\""

theorem exists_compiles {name : Text} (hok : (compileFolder w folder).outcome.isOk = true)
    (honly : documentNames w folder = .ok [name]) : ∃ d b, Compiles w folder name d b := by
  obtain ⟨⟨path, b⟩, hcompile⟩ := exists_of_isOk hok
  obtain ⟨name', d, hc, rfl⟩ := compileFolder_eq_ok.mp hcompile
  obtain rfl : name' = name :=
    List.singleton_inj.mp (Except.ok.inj (hc.only.symm.trans honly))
  exact ⟨d, b, hc⟩

/-- Whether all texts of a document can be written to a file. -/
def hasPlainTexts (x : Except Failure Document) : Bool :=
  match x with
  | .ok d => d.flows.all fun flow => !flow.html.any CodePoint.isSurrogate
  | .error _ => false

theorem hasPlainTexts_eq_true {name : Text} {d : Document} {b : Bundle}
    (h : Compiles w folder name d b) :
    hasPlainTexts (loadDocument w (folder.child name)).outcome = true ↔
      ∀ flow ∈ d.flows, flow.html.IsUnicode := by
  rw [h.loaded, hasPlainTexts, List.all_eq_true]
  refine forall₂_congr fun flow _ => ?_
  rw [Bool.not_eq_true', Text.any_isSurrogate_eq_false]

theorem plainTalk_builds :
    ∃ page, (SvgDeck.build plainTalk (.ofText "talk")).2.outcome = .ok page := by
  have hcompiles : ∃ d b, Compiles plainTalk (.ofText "talk") "talk.yml" d b :=
    exists_compiles (by decide +kernel) (toOption_eq_some.mp (by decide +kernel))
  obtain ⟨d, b, hc⟩ := hcompiles
  have hw : plainTalk.CanWrite ((Path.ofText "talk").child (pageName "talk.yml"))
      [Name.ofText "talk", Name.ofText "talk.html"] :=
    ⟨by decide +kernel, by decide +kernel, by decide +kernel⟩
  have htexts := (hasPlainTexts_eq_true hc).mp (by decide +kernel)
  have hunicode := hc.isUnicode_iff.mpr ⟨Text.any_isSurrogate_eq_false.mp (by decide), htexts⟩
  exact ⟨_, (build_of_isUnicode hc hw hunicode).1⟩

theorem allOrNothing_iff_plainTalk :
    ∃ page, (SvgDeck.build plainTalk (.ofText "talk")).2.outcome = .ok page ∧
      WritesPage plainTalk (.ofText "talk") page (SvgDeck.build plainTalk (.ofText "talk")).1 := by
  obtain ⟨page, hpage⟩ := plainTalk_builds
  -- A page that is spoiled would have been a failure.
  have hsound : ¬ SpoilsPage plainTalk (.ofText "talk") := by
    intro hspoils
    obtain ⟨u, hu⟩ := hspoils.outcome
    rw [hpage] at hu
    cases hu
  exact ⟨page, hpage, (((allOrNothing_iff plainTalk).1 _).mpr hsound).done page hpage⟩

theorem surrogateTalk_spoilsPage : SpoilsPage surrogateTalk (.ofText "talk") := by
  have hcompiles : ∃ d b, Compiles surrogateTalk (.ofText "talk") "talk.yml" d b :=
    exists_compiles (by decide +kernel) (toOption_eq_some.mp (by decide +kernel))
  obtain ⟨d, b, hc⟩ := hcompiles
  have hw : surrogateTalk.CanWrite ((Path.ofText "talk").child (pageName "talk.yml"))
      [Name.ofText "talk", Name.ofText "talk.html"] :=
    ⟨by decide +kernel, by decide +kernel, by decide +kernel⟩
  refine ⟨_, d, b, _, hc, hw, by decide +kernel, ?_⟩
  rintro ⟨_, hunicode⟩
  have htexts := (hasPlainTexts_eq_true hc).mpr hunicode
  revert htexts
  decide +kernel

/-- The earlier page is lost, although the build fails. -/
theorem surrogateTalk_not_buildsAllOrNothing :
    ¬ BuildsAllOrNothing surrogateTalk (.ofText "talk") := by
  intro h
  exact buildsAllOrNothing_iff.mp h surrogateTalk_spoilsPage

end CommandLine

end SvgDeck
