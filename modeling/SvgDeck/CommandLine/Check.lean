/-
The command that checks a document.

It loads a document and compiles all its directives, and looks at no picture.  It only
reads: its result holds no workspace.
-/
import SvgDeck.CommandLine.Options
import SvgDeck.Animation
import SvgDeck.Bundle
import SvgDeck.Deck.Load

namespace SvgDeck.CommandLine

def checkCommand : Command where
  name := "validate_document.py"
  usage := "usage: validate_document.py [-h] yaml_file"
  help :=
    Text.ofLines
      ["Validate a slideshow YAML document",
      "",
      "positional arguments:",
      "  yaml_file   Path to the *.yml document",
      "",
      "options:",
      "  -h, --help  show this help message and exit"]
  choices := [helpChoice]
  operand := some "yaml_file"

/-- The document that events name. -/
def documentOf (events : List Event) : Path :=
  .ofText <|
    (events.findSome? fun
      | .operand t => some t
      | _ => none).getD []

/-- What is counted in a document that passed. -/
structure Counts where
  sections : Nat
  flows : Nat
  assets : Nat
  animations : Nat

/-- Loads a document and compiles its directives. -/
def countDocument [DataReader] (w : Workspace) (path : Path) : Run Counts := do
  let d ← loadDocument w path
  let refs ← assignIds d
  let animations ← compileAnimations refs
  return ⟨d.sections.length, refs.length, (roots refs).length, animations.length⟩

def Counts.text (c : Counts) : Text :=
  "  Sections: " ++ Text.ofNat c.sections ++ "\n  Flows: " ++ Text.ofNat c.flows ++
    "\n  SVG files referenced: " ++ Text.ofNat c.assets ++
    "\n  Flows with animations: " ++ Text.ofNat c.animations ++ "\n"

/-- Checks the document at a path. -/
def checkDocument [DataReader] (w : Workspace) (path : Path) : Except Failure Output := do
  let found ← w.exists? path
  if !found then return ⟨1, [], "Error: YAML file not found: " ++ path.text ++ "\n"⟩
  else
    match (countDocument w path).outcome with
    | .ok counts => return ⟨0, "Validation PASSED: " ++ path.text ++ "\n" ++ counts.text, []⟩
    | .error (.reported cause) =>
      return ⟨1, [], "Validation FAILED: " ++ path.text ++ "\n  Error: " ++ cause.report.text ++ "\n"⟩
    | .error f => .error f

/-- Runs the command in a workspace. -/
def check [DataReader] (w : Workspace) (arguments : List Text) : Except Failure Output :=
  match start checkCommand arguments with
  | .error output => .ok output
  | .ok events => checkDocument w (documentOf events)

end SvgDeck.CommandLine
