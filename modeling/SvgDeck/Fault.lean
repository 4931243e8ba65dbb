/-
What an author is told when a slideshow cannot be made.

`Cause` lists the conditions, each with what it is about.  `Cause.report` puts one
into words: the subject, a message, and further lines such as the missing files.
-/
import SvgDeck.Directive.Timing
import SvgDeck.Schema.Finding
import SvgDeck.Text.Utf8

namespace SvgDeck

/-! ### Reports -/

/-- The conditions that a report can be about. -/
inductive Condition where
  | malformedFocus
  | malformedHighlight
  | negativeDuration
  | missingAssets
  | missingBody
  | unreadableAsset
  | invalidDocument
  | folderNotFound
  | noSingleDocument
  | folderNotEmpty
  | duplicateId
deriving DecidableEq

namespace Condition

def name : Condition → Text
  | .malformedFocus => "malformed_focus"
  | .malformedHighlight => "malformed_highlight"
  | .negativeDuration => "negative_duration"
  | .missingAssets => "missing_assets"
  | .missingBody => "missing_svg_body"
  | .unreadableAsset => "unreadable_asset"
  | .invalidDocument => "invalid_document"
  | .folderNotFound => "folder_not_found"
  | .noSingleDocument => "no_single_document"
  | .folderNotEmpty => "folder_not_empty"
  | .duplicateId => "duplicate_id"

def all : List Condition :=
  [.malformedFocus, .malformedHighlight, .negativeDuration, .missingAssets, .missingBody,
    .unreadableAsset, .invalidDocument, .folderNotFound, .noSingleDocument, .folderNotEmpty,
    .duplicateId]

/-- The condition of a given name. -/
def ofName? (name : Text) : Option Condition := all.find? fun c => c.name = name

/-- What is said of a name that no condition has. -/
def unknownName (name : Text) : Text := name.quoted ++ " is not a valid ErrorKind"

/-- Whether the condition is a fault of the library, not of the author. -/
def isInternal (c : Condition) : Bool := c = .duplicateId

end Condition

/-- A condition in words. -/
structure Report where
  condition : Condition
  subject : Text
  message : Text
  details : List Text

/-- The message with each detail indented on lines of its own. -/
def Report.text (r : Report) : Text :=
  Text.lines (r.message :: r.details.map fun d => "  " ++ d)

/-! ### Causes -/

/-- The two directives that a flow can have. -/
inductive DirectiveKind where
  | focus
  | highlight
deriving DecidableEq

def DirectiveKind.name : DirectiveKind → Text
  | .focus => "focus"
  | .highlight => "highlight"

inductive Cause where
  /-- A directive of a flow cannot be read. -/
  | malformed (kind : DirectiveKind) (flow text : Text) (fault : Directive.SyntaxFault)
  /-- A directive of a flow ends before it starts. -/
  | negativeDuration (kind : DirectiveKind) (flow : Text) (timing : Directive.Timing)
  | missingAssets (folder : Text) (paths : List Text)
  | missingBody (name : Text)
  | unreadableAsset (name : Text) (fault : Utf8.Fault)
  /-- The document is no well-formed data. -/
  | malformedDocument (path : Text)
  | unreadableDocument (path : Text) (fault : Utf8.Fault)
  | rejectedDocument (path : Text) (findings : List Finding)
  | folderNotFound (folder : Text)
  | noSingleDocument (folder : Text) (names : List Text)
  | folderNotEmpty (folder : Text)
  | duplicateId (id : Text)

namespace Cause

def condition : Cause → Condition
  | .malformed .focus .. => .malformedFocus
  | .malformed .highlight .. => .malformedHighlight
  | .negativeDuration .. => .negativeDuration
  | .missingAssets .. => .missingAssets
  | .missingBody .. => .missingBody
  | .unreadableAsset .. => .unreadableAsset
  | .malformedDocument .. => .invalidDocument
  | .unreadableDocument .. => .invalidDocument
  | .rejectedDocument .. => .invalidDocument
  | .folderNotFound .. => .folderNotFound
  | .noSingleDocument .. => .noSingleDocument
  | .folderNotEmpty .. => .folderNotEmpty
  | .duplicateId .. => .duplicateId

/-- The flow, picture, file or folder that a cause is about. -/
def subject : Cause → Text
  | .malformed _ flow _ _ => flow
  | .negativeDuration _ flow _ => flow
  | .missingAssets folder _ => folder
  | .missingBody name => name
  | .unreadableAsset name _ => name
  | .malformedDocument path => path
  | .unreadableDocument path _ => path
  | .rejectedDocument path _ => path
  | .folderNotFound folder => folder
  | .noSingleDocument folder _ => folder
  | .folderNotEmpty folder => folder
  | .duplicateId id => id

def message : Cause → Text
  | .malformed kind flow text fault =>
    "Flow '" ++ flow ++ "': bad " ++ kind.name ++ " '" ++ text ++ "': " ++ fault.message
  | .negativeDuration kind flow timing =>
    "Flow '" ++ flow ++ "': " ++ kind.name ++ " ends at " ++ timing.stop.text ++
      "s, before it starts at " ++ timing.start.text ++ "s"
  | .missingAssets folder _ =>
    "Not all SVG files referenced by the slideshow are present in '" ++ folder ++ "'"
  | .missingBody name => "No <svg>...</svg> element found in '" ++ name ++ "'"
  | .unreadableAsset name fault => "'" ++ name ++ "' is not UTF-8 text: " ++ fault.message
  | .malformedDocument path => "'" ++ path ++ "' is not valid UTF-8 YAML"
  | .unreadableDocument path _ => "'" ++ path ++ "' is not valid UTF-8 YAML"
  | .rejectedDocument path _ => "'" ++ path ++ "' failed to parse"
  | .folderNotFound folder => "Folder '" ++ folder ++ "' doesn't exist"
  | .noSingleDocument folder names =>
    "Folder '" ++ folder ++ "' must have a single .yml file, found " ++ Text.ofNat names.length
  | .folderNotEmpty folder => "Folder '" ++ folder ++ "' should be empty before seeding"
  | .duplicateId id => "Internal error: flow id '" ++ id ++ "' is not unique"

/-- The lines under the message. -/
def details : Cause → List Text
  | .missingAssets _ paths => paths
  | .malformedDocument _ => ["<yaml>"]
  | .unreadableDocument _ fault => [fault.message]
  | .rejectedDocument _ findings => findings.map (Finding.line "<document>")
  | .noSingleDocument _ names => names
  | _ => []

def report (c : Cause) : Report := ⟨c.condition, c.subject, c.message, c.details⟩

end Cause

end SvgDeck
