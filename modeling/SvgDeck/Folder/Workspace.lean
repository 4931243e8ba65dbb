/-
Files and folders.

A workspace maps the places below the top folder to files and folders and knows the
current folder.  A path is looked up part by part: each part but the last must be a
folder.  Names may have 255 bytes and paths 4095.  A path that does not stand for bytes leads to
nothing, and cannot be shown from the top.
-/
import SvgDeck.Failure
import SvgDeck.Folder.Path

namespace SvgDeck

inductive Entry where
  | file (bytes : List UInt8)
  | folder
deriving DecidableEq

structure Workspace where
  entries : List (Location × Entry)
  /-- The current folder. -/
  current : Location

namespace Workspace

/-! ### Places -/

/-- What stands at a place; the top is a folder. -/
def entryAt? (w : Workspace) (place : Location) : Option Entry :=
  if place = [] then some .folder else w.entries.lookup place

/-- The workspace with something else at one place. -/
def put (w : Workspace) (place : Location) (e : Entry) : Workspace :=
  { w with
    entries :=
      if (w.entries.lookup place).isSome then
        w.entries.map fun x => if x.1 = place then (place, e) else x
      else w.entries ++ [(place, e)] }

/-- The names of what stands directly in a folder, as they are shown. -/
def namesIn (w : Workspace) (place : Location) : List Text :=
  w.entries.filterMap fun x =>
    if x.1 ≠ [] ∧ x.1.dropLast = place then x.1.getLast?.map Name.text else none

/-- The number of bytes of a name or a path. -/
def byteLength (t : Text) : Nat := (Name.ofText t).bytes.length

def nameLimit : Nat := 255

def pathLimit : Nat := 4095

/-- Walks from a place along parts; all that is passed must be a folder. -/
def walk (w : Workspace) : Location → List Text → Except PathFault Location
  | place, [] => .ok place
  | place, part :: parts =>
    match w.entryAt? place with
    | none => .error .notFound
    | some (.file _) => .error .notFolder
    | some .folder =>
      if nameLimit < byteLength part then .error .nameTooLong
      else walk w (if part = Path.above then place.dropLast else place ++ [Name.ofText part]) parts

/-- The place that a path leads to, where nothing needs to stand. -/
def locate (w : Workspace) (p : Path) : Except PathFault Location :=
  match Name.fault? p.text with
  | some fault => .error (.unnameable fault)
  | none =>
    if pathLimit < byteLength p.text then .error .nameTooLong
    else w.walk (if p.anchor = [] then w.current else []) p.parts

/-- What stands where a path leads. -/
def entry (w : Workspace) (p : Path) : Except PathFault Entry := do
  let place ← w.locate p
  match w.entryAt? place with
  | some e => .ok e
  | none => .error .notFound

/-! ### Questions -/

/-- What stands where a path leads, or nothing.  Only a path that is too long is a failure. -/
def entry? (w : Workspace) (p : Path) : Except Failure (Option Entry) :=
  match w.entry p with
  | .ok e => .ok (some e)
  | .error .nameTooLong => .error (.path .nameTooLong p.text)
  | .error _ => .ok none

def exists? (w : Workspace) (p : Path) : Except Failure Bool := do
  return (← w.entry? p).isSome

def isFolder (w : Workspace) (p : Path) : Except Failure Bool := do
  return (← w.entry? p) = some .folder

def isFile (w : Workspace) (p : Path) : Except Failure Bool := do
  match ← w.entry? p with
  | some (.file _) => return true
  | _ => return false

/-- The bytes of a file. -/
def read (w : Workspace) (p : Path) : Except Failure (List UInt8) :=
  match w.entry p with
  | .ok (.file bytes) => .ok bytes
  | .ok .folder => .error (.path .isFolder p.text)
  | .error fault => .error (.path fault p.text)

/-- The names of what stands directly in the folder that a path leads to. -/
def names (w : Workspace) (p : Path) : List Text :=
  match w.locate p with
  | .error _ => []
  | .ok place => w.namesIn place

/-- The name of something in a folder, if it is a file. -/
def fileName? (w : Workspace) (p : Path) (name : Text) : Except Failure (Option Text) := do
  return if ← w.isFile (p.child name) then some name else none

/-- The files directly in a folder, by name.  All that stands in the folder is looked up, so a path
to any of it that is too long is a failure. -/
def filesIn (w : Workspace) (p : Path) : Except Failure (List Text) := do
  let files ← (w.names p).mapM (w.fileName? p)
  return files.filterMap id

/-- Whether nothing stands in a folder. -/
def isEmptyFolder (w : Workspace) (p : Path) : Bool :=
  match w.locate p with
  | .error _ => true
  | .ok place => (w.namesIn place).isEmpty

/-- The first fault in what a path is known by while it is followed part by part. -/
def passFault? (anchored : Bool) : (passed parts : List Text) → Option NameFault
  | _, [] => none
  | passed, part :: parts =>
    match Name.fault? (Path.mk (if anchored then "/" else []) (passed ++ [part])).text with
    | some fault => some fault
    | none => passFault? anchored (Path.advance anchored passed part) parts

/-- The path from the top in print. -/
def shown (w : Workspace) (p : Path) : Except Failure Text :=
  match passFault? (p.anchor ≠ []) [] p.parts with
  | some fault => .error (.path (.unnameable fault) p.text)
  | none => .ok (p.resolve (w.current.map Name.text)).text

/-! ### Changes -/

/-- Creates a file or replaces its bytes. -/
def write (w : Workspace) (p : Path) (bytes : List UInt8) : Except Failure Workspace :=
  match w.locate p with
  | .error fault => .error (.path fault p.text)
  | .ok place =>
    match w.entryAt? place.dropLast, w.entryAt? place with
    | some .folder, some .folder => .error (.path .isFolder p.text)
    | some .folder, _ => .ok (w.put place (.file bytes))
    | some (.file _), _ => .error (.path .notFolder p.text)
    | none, _ => .error (.path .notFound p.text)

/-- Creates the folders that parts of the path `p` lead to, starting from a place. -/
def makeParts (w : Workspace) (p : Path) (place : Location) :
    List Text → Except Failure Workspace
  | [] => .ok w
  | part :: parts =>
    if nameLimit < byteLength part then .error (.path .nameTooLong p.text)
    else
      let next := if part = Path.above then place.dropLast else place ++ [Name.ofText part]
      match w.entryAt? next with
      | some .folder => makeParts w p next parts
      | some (.file _) => .error (.path (if parts = [] then .taken else .notFolder) p.text)
      | none => makeParts (w.put next .folder) p next parts

/-- Creates a folder and the folders that lead to it, as far as they are not there. -/
def makeFolder (w : Workspace) (p : Path) : Except Failure Workspace :=
  match Name.fault? p.text with
  | some fault => .error (.path (.unnameable fault) p.text)
  | none =>
    if pathLimit < byteLength p.text then .error (.path .nameTooLong p.text)
    else w.makeParts p (if p.anchor = [] then w.current else []) p.parts

/-- Removes what stands at a path, a folder with all that stands in it. -/
def remove (w : Workspace) (p : Path) : Except Failure Workspace :=
  match w.locate p with
  | .error fault => .error (.path fault p.text)
  | .ok place =>
    if (w.entryAt? place).isSome then
      .ok { w with entries := w.entries.filter fun x => !place.isPrefixOf x.1 }
    else .error (.path .notFound p.text)

/-- All that stands below the current folder, in order, with a slash after each folder. -/
def listing (w : Workspace) : List Text :=
  let shown := w.entries.filterMap fun x =>
    if w.current.isPrefixOf x.1 ∧ x.1 ≠ w.current then
      let path := Text.join "/" ((x.1.drop w.current.length).map Name.text)
      some (match x.2 with
        | .folder => path ++ "/"
        | .file _ => path)
    else none
  shown.mergeSort Text.le

end Workspace

end SvgDeck
