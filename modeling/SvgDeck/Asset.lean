/-
Pictures.

The picture of a flow is the file named by the root of its id.  All pictures must be
there before any is read; all that are missing are reported together.  From each file
the outermost `svg` element is taken and put into an element of its own on the page.
-/
import SvgDeck.Folder.Workspace
import SvgDeck.Run
import SvgDeck.Text.Search

namespace SvgDeck

/-- A folder, and how messages name it. -/
structure FolderName where
  path : Path
  shown : Text

/-- A folder that messages show as a path. -/
def FolderName.ofPath (p : Path) : FolderName := ⟨p, p.text⟩

/-- A folder that messages show as it was given. -/
def FolderName.ofText (t : Text) : FolderName := ⟨.ofText t, t⟩

/-- The file of a picture. -/
def assetPath (folder : Path) (root : Text) : Path := folder.join (.ofText (root ++ ".svg"))

/-! ### Files -/

/-- The path from the top in print, if nothing stands at it. -/
def absence (w : Workspace) (p : Path) : Except Failure (Option Text) := do
  let found ← w.exists? p
  if found then return none else return some (← w.shown p)

/-- Those of `paths` at which nothing stands, from the top in print.  The first that cannot be looked
up or shown is a failure. -/
def absent (w : Workspace) (paths : List Path) : Except Failure (List Text) := do
  let absences ← paths.mapM (absence w)
  return absences.filterMap id

/-- The files of pictures, each once, if all of them are there. -/
def resolveAssets (w : Workspace) (folder : FolderName) (roots : List Text) : Run (List Path) := do
  let paths := (Text.distinct roots).map (assetPath folder.path)
  let missing ← Run.ofExcept (absent w paths)
  if missing = [] then return paths
  else
    missing.forM fun p => Run.write .error ("SVG file referenced but not found: " ++ p)
    Run.report (.missingAssets folder.shown missing)

/-- The text of a picture's file. -/
def readAsset (w : Workspace) (p : Path) : Except Failure Text := do
  let bytes ← w.read p
  match Utf8.decodeLines bytes with
  | .ok text => .ok text
  | .error fault => .error (.reported (.unreadableAsset p.name fault))

/-! ### Markup -/

def bodyStart : Text := "<svg"

def bodyEnd : Text := "</svg>"

/-- The outermost `svg` element: from the first start to the last end that follows it. -/
def body? (t : Text) : Option Text := do
  let (_, rest) ← Text.cut? bodyStart t
  let (inside, _) ← Text.cutLast? bodyEnd rest
  return bodyStart ++ inside ++ bodyEnd

/-- The element of the picture with a given file name. -/
def extractBody (text name : Text) : Except Failure Text :=
  match body? text with
  | some body => .ok body
  | none => .error (.reported (.missingBody name))

/-- The picture as the page holds it. -/
def wrapBody (root body : Text) : Text :=
  "<div id=\"" ++ root ++ "\" class=\"flow-svg\">\n" ++ body ++ "\n</div>"

/-- Reads pictures and wraps each. -/
def buildEach (w : Workspace) : List (Text × Path) → Run (List Text)
  | [] => return []
  | (root, p) :: rest => do
    let text ← Run.ofExcept (readAsset w p)
    let body ← Run.ofExcept (extractBody text p.name)
    Run.write .debug
      ("Embedded " ++ p.name ++ " (" ++ Text.ofNat body.length ++ " characters)")
    let more ← buildEach w rest
    return wrapBody root body :: more

/-- All pictures as the page holds them, with a blank line between neighbours. -/
def buildFragments (w : Workspace) (folder : FolderName) (roots : List Text) : Run Text := do
  let roots := Text.distinct roots
  let paths ← resolveAssets w folder roots
  let fragments ← buildEach w (roots.zip paths)
  Run.write .info
    ("Embedded " ++ Text.ofNat fragments.length ++ " SVG file(s) from " ++ folder.shown)
  return Text.join "\n\n" fragments

end SvgDeck
