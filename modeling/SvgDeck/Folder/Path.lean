/-
Paths.

A path is read from a text: empty parts and single points are dropped, two points
are kept.  The name of a path divides into stem and suffix at its last point, unless
that is its first or last character.
-/
import SvgDeck.Text.Basic

namespace SvgDeck

/-- A path: slashes it starts with, then its parts. -/
structure Path where
  /-- Empty for a path that is relative to the current folder. -/
  anchor : Text
  parts : List Text
deriving DecidableEq

namespace Path

/-- The part that leads to the folder above. -/
def above : Text := ".."

/-- The slashes that count of those at the start: exactly two stay two, all others are one. -/
def anchorOf (t : Text) : Text :=
  match (t.takeWhile (· = CodePoint.ofChar '/')).length with
  | 0 => []
  | 2 => "//"
  | _ => "/"

def ofText (t : Text) : Path where
  anchor := anchorOf t
  parts := (t.splitOn (CodePoint.ofChar '/')).filter fun p => p ≠ [] ∧ p ≠ Text.ofString "."

/-- The path in print; a path of no parts is the current folder. -/
def text (p : Path) : Text :=
  if p.anchor = [] ∧ p.parts = [] then "." else p.anchor ++ Text.join "/" p.parts

/-- The path `q`, seen from `p`. -/
def join (p q : Path) : Path :=
  if q.anchor = [] then ⟨p.anchor, p.parts ++ q.parts⟩ else q

/-- The entry of `p` with a given name. -/
def child (p : Path) (name : Text) : Path := ⟨p.anchor, p.parts ++ [name]⟩

def parent (p : Path) : Path := ⟨p.anchor, p.parts.dropLast⟩

/-- The last part, or nothing. -/
def name (p : Path) : Text := p.parts.getLast?.getD []

/-- Where the suffix of a name starts; at its end if it has none. -/
def suffixStart (name : Text) : Nat :=
  let tail := (name.reverse.takeWhile (· ≠ CodePoint.ofChar '.')).length
  let start := name.length - tail - 1
  if tail = 0 ∨ start = 0 then name.length else start

def stem (p : Path) : Text := p.name.take (suffixStart p.name)

def suffix (p : Path) : Text := p.name.drop (suffixStart p.name)

/-- The path with another suffix; nothing if it has no name. -/
def withSuffix? (p : Path) (suffix : Text) : Option Path :=
  if p.name = [] then none else some (p.parent.child (p.stem ++ suffix))

/-- Follows parts from a row of folders, where two points lead one folder up. -/
def follow (folders : List Text) (parts : List Text) : List Text :=
  parts.foldl (fun at_ part => if part = above then at_.dropLast else at_ ++ [part]) folders

/-- The path from the top, without points, for a given current folder. -/
def resolve (current : List Text) (p : Path) : Path :=
  ⟨"/", follow (if p.anchor = [] then current else []) p.parts⟩

/-- The parts that a path is known by after one part more, while it is followed from the top or, if
it is not `anchored`, from a folder that is not known: above that folder two points stay. -/
def advance (anchored : Bool) (passed : List Text) (part : Text) : List Text :=
  if part ≠ above then passed ++ [part]
  else if passed.getLast? = some above ∨ (passed = [] ∧ !anchored) then passed ++ [above]
  else passed.dropLast

end Path

end SvgDeck
