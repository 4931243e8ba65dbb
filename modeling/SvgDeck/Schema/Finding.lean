/-
What is wrong with document data, and where.

A finding names a place in the data, as the keys and indices that lead to it, and
a problem.  `Finding.line` puts it on one line of a report.
-/
import SvgDeck.Text.Basic

namespace SvgDeck

/-- One step into the data. -/
inductive Step where
  | key (name : Text)
  | index (n : Nat)
deriving DecidableEq

/-- Why a value is refused. -/
inductive Problem where
  | missing
  | notText
  | notUnicode
  | mismatch (pattern : Text)
  | notList
  | notMapping (model : Text)
  | unknownKey
  | keyNotText
  | notNumber
  | notNumeral
  | notBoolean
  | unclearBoolean
  | notDecimal
  | notDecimalKind
  | notFinite
  | belowZero
deriving DecidableEq

structure Finding where
  path : List Step
  problem : Problem
deriving DecidableEq

def Step.text : Step → Text
  | .key name => name
  | .index n => Text.ofNat n

def Problem.message : Problem → Text
  | .missing => "Field required"
  | .notText => "Input should be a valid string"
  | .notUnicode => "Input should be a valid string, unable to parse raw data as a unicode string"
  | .mismatch pattern => "String should match pattern '" ++ pattern ++ "'"
  | .notList => "Input should be a valid list"
  | .notMapping model => "Input should be a valid dictionary or instance of " ++ model
  | .unknownKey => "Extra inputs are not permitted"
  | .keyNotText => "Keys should be strings"
  | .notNumber => "Input should be a valid number"
  | .notNumeral => "Input should be a valid number, unable to parse string as a number"
  | .notBoolean => "Input should be a valid boolean"
  | .unclearBoolean => "Input should be a valid boolean, unable to interpret input"
  | .notDecimal => "Input should be a valid decimal"
  | .notDecimalKind => "Decimal input should be an integer, float, string or Decimal object"
  | .notFinite => "Input should be a finite number"
  | .belowZero => "Input should be greater than or equal to 0"

namespace Finding

/-- The place of the finding; `whole` stands for the data as a whole. -/
def location (whole : Text) (f : Finding) : Text :=
  let place := Text.join "." (f.path.map Step.text)
  if place = [] then whole else place

/-- The finding on one line. -/
def line (whole : Text) (f : Finding) : Text :=
  f.location whole ++ ": " ++ f.problem.message

/-- The same finding seen from one step further out. -/
def under (step : Step) (f : Finding) : Finding := { f with path := step :: f.path }

end Finding

end SvgDeck
