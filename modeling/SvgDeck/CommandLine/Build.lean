/-
The command that builds a slideshow.

It builds the page of a folder or puts the starter into an empty one.  The log goes to
the second text, down to the level that is asked for, and a cause that stops the command
is reported behind it.
-/
import SvgDeck.CommandLine.Options
import SvgDeck.Deck.Starter

namespace SvgDeck.CommandLine

def folderChoice : Choice := ⟨"-f", "--folder", true⟩

def seedChoice : Choice := ⟨"-s", "--seed", false⟩

def verboseChoice : Choice := ⟨"-v", "--verbose", false⟩

def buildCommand : Command where
  name := "build_slideshow.py"
  usage := "usage: build_slideshow.py [-h] [-f FOLDER] [-s] [-v]"
  help :=
    Text.ofLines
      ["Build an HTML slideshow from a folder with one *.yml and its *.svg files",
      "",
      "options:",
      "  -h, --help            show this help message and exit",
      "  -f FOLDER, --folder FOLDER",
      "                        Slideshow folder (default: current folder)",
      "  -s, --seed            Populate an empty folder with a starter *.yml and",
      "                        *.svg files",
      "  -v, --verbose         Log per-flow details",
      "",
      "    min: 1em                     # font size of inactive flows",
      "    max: 2.5em                   # font size of the active flow",
      "    sections:",
      "    - flows:",
      "      - html: ...                # HTML text of the flow",
      "        seconds: 2               # seconds to animate into this flow",
      "        id: ...                  # name of the *.svg to display",
      "        centered: true           # optional: center the text",
      "        focus: \"0,0,1000,1000;250,250,500,500 0 2\"",
      "        highlight: \"100,100,300,200 #ea4335 4 0;1 0 1\"",
      "      subsections:",
      "      - flows:",
      "        - ...",
      "",
      "SVG files should be 1000px x 1000px; '--seed' writes canvases of that size."]
  choices := [helpChoice, folderChoice, seedChoice, verboseChoice]
  operand := none

/-- What the command is asked to do. -/
structure BuildRequest where
  folder : Path
  seed : Bool
  verbose : Bool

def BuildRequest.apply (r : BuildRequest) : Event → BuildRequest
  | .flag c =>
    if c = seedChoice then { r with seed := true }
    else if c = verboseChoice then { r with verbose := true }
    else r
  | .value _ folder => { r with folder := .ofText folder }
  | .operand _ => r

/-- The request that events make; the last folder counts. -/
def BuildRequest.ofEvents (events : List Event) : BuildRequest :=
  events.foldl BuildRequest.apply ⟨.ofText ".", false, false⟩

/-- The log as it is shown. -/
def showLog (verbose : Bool) (log : List LogLine) : Text :=
  (log.filter fun l => verbose || l.level ≠ .debug).flatMap fun l => l.shown ++ Text.ofString "\n"

/-- The end of a run: `done` is printed for its result, and a reported cause ends the command with
code 1. -/
def finish {α : Type} (r : BuildRequest) (greeting : Text) (run : Run α) (done : α → Text) :
    Except Failure Output :=
  let log := showLog r.verbose run.log
  match run.outcome with
  | .ok a => .ok ⟨0, greeting ++ done a, log⟩
  | .error (.reported cause) =>
    .ok ⟨1, greeting, log ++ "Error: " ++ cause.report.text ++ "\n"⟩
  | .error f => .error f

def seededText (paths : List Path) : Text :=
  "Seeded " ++ Text.ofNat paths.length ++ " files:\n" ++
    Text.lines (paths.map fun p => "  " ++ p.text) ++ "\n"

def generatedText (page : Path) : Text := "Slideshow generated: " ++ page.text ++ "\n"

/-- Carries out a request. -/
def BuildRequest.run [DataReader] (r : BuildRequest) (w : Workspace) :
    Workspace × Except Failure Output :=
  match w.shown r.folder with
  | .error f => (w, .error f)
  | .ok folder =>
    let greeting : Text := "Working with folder '" ++ folder ++ "'...\n"
    if r.seed then
      let (w, run) := SvgDeck.seed w r.folder
      (w, finish r greeting run seededText)
    else
      let (w, run) := SvgDeck.build w r.folder
      (w, finish r greeting run generatedText)

/-- Runs the command in a workspace. -/
def build [DataReader] (w : Workspace) (arguments : List Text) :
    Workspace × Except Failure Output :=
  match start buildCommand arguments with
  | .error output => (w, .ok output)
  | .ok events => (BuildRequest.ofEvents events).run w

end SvgDeck.CommandLine
