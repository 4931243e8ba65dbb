/-
How an operation ends without a result.

Most failures are causes that are reported to the author.  The others come from
outside the library's own rules: the file system, a text without UTF-8 form, a
number out of all bounds, or a data file on which its reader breaks down.
-/
import SvgDeck.Fault
import SvgDeck.Folder.Name
import SvgDeck.Yaml.Fault

namespace SvgDeck

/-- What the file system refuses to do with a path. -/
inductive PathFault where
  | notFound
  | notFolder
  | isFolder
  | taken
  | nameTooLong
  /-- A text that names nothing, since not all of it stands for bytes. -/
  | unnameable (fault : NameFault)
deriving DecidableEq

inductive Failure where
  | reported (cause : Cause)
  /-- Data that should be of a given form and is not. -/
  | rejected (findings : List Finding)
  /-- A duration beyond the exponent limits. -/
  | overflow
  /-- A duration that takes more digits than an operation can be carried out with. -/
  | precision
  /-- The file system's refusal, with the path as it was given. -/
  | path (fault : PathFault) (path : Text)
  /-- There is no document at the path. -/
  | noDocument (path : Text)
  /-- The path ends in no name, so no file can be written beside it. -/
  | nameless (path : Text)
  | unencodable (text : Utf8.Unencodable)
  | breakdown (b : Yaml.Breakdown)

def PathFault.message (path : Text) : PathFault → Text
  | .notFound => "[Errno 2] No such file or directory: " ++ path.quoted
  | .notFolder => "[Errno 20] Not a directory: " ++ path.quoted
  | .taken => "[Errno 17] File exists: " ++ path.quoted
  | .isFolder => "[Errno 21] Is a directory: " ++ path.quoted
  | .nameTooLong => "[Errno 36] File name too long: " ++ path.quoted
  | .unnameable fault => fault.message

def Failure.message : Failure → Text
  | .reported cause => cause.message
  | .rejected findings => Text.lines (findings.map (Finding.line []))
  | .overflow => "[<class 'decimal.Overflow'>]"
  | .precision => "valid range for prec is [1, MAX_PREC]"
  | .path fault p => fault.message p
  | .noDocument p => "YAML file not found: " ++ p
  | .nameless p => "PosixPath(" ++ p.quoted ++ ") has an empty name"
  | .unencodable u => u.message
  | .breakdown b => b.message

end SvgDeck
