/-
Finding and loading the document of a slideshow.

A folder must hold exactly one document, a file with the suffix `.yml` in any case.  A
document is loaded from its file in two steps: a `DataReader` reads the data, and the schema
checks them.  What is wrong in either is reported with the document's path, unless the reader
breaks down.
-/
import SvgDeck.Folder.Workspace
import SvgDeck.Run
import SvgDeck.Schema.Document
import SvgDeck.Yaml.Data

namespace SvgDeck

def documentSuffix : Text := ".yml"

/-- Whether a file of this name is a document. -/
def isDocumentName (name : Text) : Bool :=
  (Path.suffix (.child ⟨[], []⟩ name)).toAsciiLower = documentSuffix

/-- Fails unless a path leads to a folder. -/
def requireFolder (w : Workspace) (folder : Path) : Run Unit := do
  let isFolder ← Run.ofExcept (w.isFolder folder)
  if isFolder then return () else Run.report (.folderNotFound folder.text)

/-- The names of the documents in a folder, in order. -/
def documentNames (w : Workspace) (folder : Path) : Except Failure (List Text) := do
  return ((← w.filesIn folder).filter isDocumentName).mergeSort Text.le

/-- The only document of a folder. -/
def findDocument (w : Workspace) (folder : Path) : Run Path := do
  requireFolder w folder
  match ← Run.ofExcept (documentNames w folder) with
  | [name] => do
    Run.write .debug ("Found slideshow document " ++ (folder.child name).text)
    return folder.child name
  | names => Run.report (.noSingleDocument folder.text names)

/-! ### Loading -/

/-- Why no data are read from a file. -/
inductive DataFault where
  | undecodable (fault : Utf8.Fault)
  | malformed
  | breakdown (b : Yaml.Breakdown)

/-- What reads the data of a file.  Loading relies on nothing but the kinds of its faults. -/
class DataReader where
  read : List UInt8 → Except DataFault Value

/-- The text of a file is decoded, and then read as YAML. -/
def readYaml (bytes : List UInt8) : Except DataFault Value :=
  match Utf8.decodeBlockLines bytes with
  | .error fault => .error (.undecodable fault)
  | .ok text =>
    match Yaml.load text with
    | .ok data => .ok data
    | .error .malformed => .error .malformed
    | .error (.breakdown b) => .error (.breakdown b)

instance : DataReader := ⟨readYaml⟩

/-- The data of a document's file. -/
def loadData [DataReader] (path : Path) (bytes : List UInt8) : Except Failure Value :=
  match DataReader.read bytes with
  | .ok data => .ok data
  | .error (.undecodable fault) => .error (.reported (.unreadableDocument path.text fault))
  | .error .malformed => .error (.reported (.malformedDocument path.text))
  | .error (.breakdown b) => .error (.breakdown b)

/-- Loads the document at a path. -/
def loadDocument [DataReader] (w : Workspace) (path : Path) : Run Document := do
  let found ← Run.ofExcept (w.exists? path)
  if !found then Run.fail (.noDocument path.text)
  else do
    let bytes ← Run.ofExcept (w.read path)
    let data ← Run.ofExcept (loadData path bytes)
    match Document.check data with
    | .invalid first more => Run.report (.rejectedDocument path.text (first :: more))
    | .valid d => do
      Run.write .info ("'" ++ path.text ++ "' parsed OK")
      return d

end SvgDeck
