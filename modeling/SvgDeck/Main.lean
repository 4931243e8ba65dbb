/-
The program.

Its first argument says which command is run, `build` or `check`, and the others are the
command's own.  What the command may look at is read into a workspace before it runs; what
it changed there is written back behind it.
-/
import SvgDeck.CommandLine.Build
import SvgDeck.CommandLine.Check

namespace SvgDeck.CommandLine

/-! ### What a command looks at -/

/-- The places that the lookup of a path passes, from the current folder or the top on. -/
def passed (current : Location) (p : Path) : List Location :=
  let first := if p.anchor = [] then current.map Name.text else []
  (List.range (p.parts.length + 1)).map fun n =>
    (Path.follow first (p.parts.take n)).map Name.ofText

/-- The folder that a build works in, if its arguments can be read. -/
def buildTarget (arguments : List Text) : Option Path :=
  (start buildCommand arguments).toOption.map fun events => (BuildRequest.ofEvents events).folder

/-- The document that a check loads, if its arguments can be read. -/
def checkTarget (arguments : List Text) : Option Path :=
  (start checkCommand arguments).toOption.map documentOf

/-- Whether the content of a file of this name matters: it is a document or a picture. -/
def isSource (name : Text) : Bool :=
  isDocumentName name || (Path.suffix (.child ⟨[], []⟩ name)) = ".svg"

/-! ### Reading and writing files -/

/-- The name of a place; without a name, the top. -/
def lastName (place : Location) : Text := (place.getLast?.map Name.text).getD []

/-- A place as a string of characters. -/
def systemName (place : Location) : String := (Path.text ⟨"/", place.map Name.text⟩).toString

/-- What stands at a place; without its content if that is not `wanted`. -/
def readEntry (wanted : Bool) (place : Location) : IO (Option Entry) := do
  let path := (← IO.currentDir) / systemName place
  if ← path.isDir then return some .folder
  else if !(← path.pathExists) then return none
  else if wanted then return some (.file (← IO.FS.readBinFile path).toList)
  else return some (.file [])

/-- The names of what stands directly at a place. -/
def readNames (place : Location) : IO (List Name) := do
  let path := (← IO.currentDir) / systemName place
  if ← path.isDir then
    return (← path.readDir).toList.map fun e => Name.ofText (Text.ofString e.fileName)
  else return []

/-- The current folder as a place. -/
def readCurrent : IO Location := do
  return (Path.ofText (Text.ofString (← IO.currentDir).toString)).parts.map Name.ofText

/-- The workspace that a command with a given target starts in: what its lookup passes, and what
stands in the target if that is a folder. -/
def readWorkspace (target : Option Path) : IO Workspace := do
  let current ← readCurrent
  let places := match target with
    | some p => passed current p
    | none => []
  let last := places.getLast?.getD []
  let below := (← readNames last).map fun name => last ++ [name]
  let entries ← (places ++ below).eraseDups.filterMapM fun place => do
    let wanted := place = last || isSource (lastName place)
    return (← readEntry wanted place).map fun e => (place, e)
  return ⟨entries, current⟩

/-- Writes the files that `after` holds and `before` does not. -/
def writeChanges (before after : Workspace) : IO Unit :=
  (after.entries.filter fun e => !before.entries.contains e).forM fun (place, e) =>
    match e with
    | .file bytes => IO.FS.writeBinFile (systemName place) bytes.toByteArray
    | .folder => pure ()

/-! ### Running -/

/-- Prints what a command left behind; the result is the exit code. -/
def printOutput : Except Failure Output → IO UInt32
  | .ok o => do
    IO.print o.out.toString
    IO.eprint o.err.toString
    return o.code.toUInt32
  | .error f => do
    IO.eprintln f.message.toString
    return 1

def runBuild (arguments : List Text) : IO UInt32 := do
  let before ← readWorkspace (buildTarget arguments)
  let (after, result) := build before arguments
  writeChanges before after
  printOutput result

def runCheck (arguments : List Text) : IO UInt32 := do
  let before ← readWorkspace (checkTarget arguments)
  printOutput (check before arguments)

end SvgDeck.CommandLine

open SvgDeck SvgDeck.CommandLine in
def main : List String → IO UInt32
  | "build" :: arguments => runBuild (arguments.map Text.ofString)
  | "check" :: arguments => runCheck (arguments.map Text.ofString)
  | _ => do
    IO.eprintln "usage: svgdeck (build | check) [argument ...]"
    return 2
