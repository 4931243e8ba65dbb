/-
Building the page of a folder.

The page is written beside the document, under the document's name with the suffix
`.html`, after every pass has succeeded.  Nothing else in the workspace changes.
-/
import SvgDeck.Deck.Load
import SvgDeck.Page.Skeleton

namespace SvgDeck

/-- Where the page of a document is written. -/
def outputPath (document : Path) : Except Failure Path :=
  match document.withSuffix? ".html" with
  | some p => .ok p
  | none => .error (.nameless document.text)

/-- Compiles the slideshow in a folder: the path of its document, and all that the page is made
of. -/
def compileFolder [DataReader] (w : Workspace) (folder : Path) : Run (Path × Bundle) := do
  let path ← findDocument w folder
  let document ← loadDocument w path
  let bundle ← compileDocument w document (.ofPath path.parent)
  return (path, bundle)

/-- The page of a folder, and where it is written. -/
def composePage [DataReader] (w : Workspace) (folder : Path) : Run (Path × Text) := do
  let (path, bundle) ← compileFolder w folder
  let output ← Run.ofExcept (outputPath path)
  return (output, bundle.render path.stem)

/-- Writes a text to a file.  The file is emptied first, and stays empty if the text has no UTF-8
form. -/
def writeText (w : Workspace) (path : Path) (text : Text) : Workspace × Except Failure Unit :=
  match w.write path [] with
  | .error f => (w, .error f)
  | .ok emptied =>
    match Utf8.encode text with
    | .error u => (emptied, .error (.unencodable u))
    | .ok bytes =>
      match w.write path bytes with
      | .error f => (emptied, .error f)
      | .ok written => (written, .ok ())

/-- Builds the page of a folder; the result is the page's path. -/
def build [DataReader] (w : Workspace) (folder : Path) : Workspace × Run Path :=
  let composed := composePage w folder
  match composed.outcome with
  | .error f => (w, ⟨composed.log, .error f⟩)
  | .ok (path, page) =>
    let (w, outcome) := writeText w path page
    let finish : Run Path := do
      Run.ofExcept outcome
      Run.write .info
        ("Wrote " ++ path.text ++ " (" ++ Text.ofNat page.length ++ " characters)")
      return path
    (w, ⟨composed.log ++ finish.log, finish.outcome⟩)

end SvgDeck
