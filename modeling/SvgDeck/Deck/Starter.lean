/-
A first slideshow for an empty folder.

The starter is a document of three flows and the two pictures it shows.  It is only put
into a folder in which nothing stands, so no file is ever replaced.
-/
import SvgDeck.Deck.Build

namespace SvgDeck

def starterDocument : Text :=
  Text.ofLines
    ["min: 1em",
    "max: 2.5em",
    "svgPaneBackgroundColor: '#ffffff'",
    "textPaneBackgroundColor: '#f4f4f4'",
    "sections:",
    "- flows:",
    "  - html: <b>Welcome.</b> This flow shows <i>intro.svg</i>.",
    "    seconds: 2",
    "    id: intro",
    "    centered: true",
    "  - html: The same SVG again, zooming into its centre.",
    "    seconds: 2",
    "    id: intro",
    "    focus: 0,0,1000,1000;250,250,500,500 0 2",
    "  subsections:",
    "  - flows:",
    "    - html: A sub-flow highlighting two regions of <i>detail.svg</i>.",
    "      seconds: 2",
    "      id: detail",
    "      highlight: '100,100,300,200;600,600,300,200 #ea4335 4 0;1 0 1'",
    ""]

/-- A canvas that shows a label. -/
def starterCanvas (label : Text) : Text :=
  Text.ofLines
    ["<?xml version=\"1.0\" encoding=\"UTF-8\"?>",
    "<svg xmlns=\"http://www.w3.org/2000/svg\" width=\"1000\" height=\"1000\" viewBox=\"0 0 1000 1000\">",
    "  <rect x=\"0\" y=\"0\" width=\"1000\" height=\"1000\" fill=\"transparent\" stroke=\"none\"/>",
    "  <text x=\"500\" y=\"500\" font-size=\"64\" text-anchor=\"middle\">"] ++
    label ++ "</text>\n</svg>\n"

/-- The files of the starter, in the order in which they are written. -/
def starterFiles (folder : Path) : List (Path × Text) :=
  [(folder.child "slideshow.yml", starterDocument),
    (assetPath folder "intro", starterCanvas "intro"),
    (assetPath folder "detail", starterCanvas "detail")]

/-- Writes files one after the other, as far as that succeeds. -/
def writeTexts (w : Workspace) : List (Path × Text) → Workspace × Except Failure Unit
  | [] => (w, .ok ())
  | (path, text) :: more =>
    match writeText w path text with
    | (w, .ok ()) => writeTexts w more
    | (w, .error f) => (w, .error f)

/-- Fails unless a path leads to a folder in which nothing stands. -/
def requireEmptyFolder (w : Workspace) (folder : Path) : Run Unit := do
  requireFolder w folder
  if w.isEmptyFolder folder then return () else Run.report (.folderNotEmpty folder.text)

/-- Puts the starter into an empty folder; the result is the paths written. -/
def seed (w : Workspace) (folder : Path) : Workspace × Run (List Path) :=
  match (requireEmptyFolder w folder).outcome with
  | .error f => (w, Run.fail f)
  | .ok () =>
    let files := starterFiles folder
    let (w, outcome) := writeTexts w files
    let finish : Run (List Path) := do
      Run.ofExcept outcome
      Run.write .info
        ("Seeded " ++ folder.text ++ " with " ++ Text.ofNat files.length ++ " files")
      return files.map (·.1)
    (w, finish)

end SvgDeck
