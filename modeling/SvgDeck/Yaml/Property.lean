/-
Names, tags and directives.

Anchors and aliases have names.  A tag is written with a handle that stands for the front
of it, in full between angle brackets, or as a lone exclamation mark.  A directive line
declares the version or a handle.  Each reader gets the text behind the first indicator
and returns what follows.
-/
import SvgDeck.Text.Digit
import SvgDeck.Text.Utf8
import SvgDeck.Yaml.Cursor
import SvgDeck.Yaml.Token

namespace SvgDeck.Yaml

/-- Fails unless a condition holds of what follows. -/
def require (ok : Bool) : Except Fault Unit := if ok then .ok () else .error .malformed

/-- Reads the name of an anchor or an alias. -/
def readName (t : Text) : Except Fault (Text × Text) := do
  let name := t.takeWhile isWord
  let rest := t.dropWhile isWord
  require (name ≠ [])
  require (endsWord rest.head? || rest.head?.any (oneOf "?:,]\x7d%@\x60"))
  return (name, rest)

/-! ### Tags -/

/-- What the expanded part of a tag is made of. -/
def isTagPart (c : CodePoint) : Bool :=
  c.isAsciiAlphanumeric || oneOf "-;/?:@&=+$,_.!~*'()[]%" c

/-- Replaces each percent sign and the two digits behind it by a byte; the bytes of a row of them
are UTF-8.  `pending` holds the bytes before the text. -/
def unescapePercent? (pending : List UInt8) : Text → Option Text
  | [] => (Utf8.decode pending).toOption
  | c :: t =>
    if c = '%' then
      match t with
      | a :: b :: t =>
        match a.hexDigit?, b.hexDigit? with
        | some x, some y => unescapePercent? (pending ++ [UInt8.ofNat (16 * x + y)]) t
        | _, _ => none
      | _ => none
    else do
      let front ← (Utf8.decode pending).toOption
      let rest ← unescapePercent? [] t
      return front ++ c :: rest

/-- Reads the expanded part of a tag. -/
def readTagPart (t : Text) : Except Fault (Text × Text) := do
  let part := t.takeWhile isTagPart
  require (part ≠ [])
  match unescapePercent? [] part with
  | some text => return (text, t.dropWhile isTagPart)
  | none => .error .malformed

/-- Reads a handle: an exclamation mark alone before a space, and else a name between two. -/
def readHandle (t : Text) : Except Fault (Text × Text) :=
  match t with
  | [] => .error .malformed
  | c :: t =>
    if c ≠ CodePoint.ofChar '!' then .error .malformed
    else if t.head?.any isSpace then .ok ([c], t)
    else
      match t.dropWhile isWord with
      | [] => .error .malformed
      | d :: rest =>
        if d = '!' then .ok (c :: t.takeWhile isWord ++ [d], rest) else .error .malformed

/-- Reads a tag whose exclamation mark was taken. -/
def readTag (t : Text) : Except Fault (Token × Text) := do
  let mark := CodePoint.ofChar '!'
  let (token, rest) ←
    if endsWord t.head? then pure (Token.tag none [mark], t)
    else if t.head?.any (oneOf "<") then do
      let (suffix, rest) ← readTagPart (t.drop 1)
      require (rest.head?.any (oneOf ">"))
      pure (Token.tag none suffix, rest.drop 1)
    else do
      let word := t.takeWhile fun c => !(isBreak c || isSpace c)
      let (handle, rest) ← if word.contains mark then readHandle (mark :: t) else pure ([mark], t)
      let (suffix, rest) ← readTagPart rest
      pure (Token.tag (some handle) suffix, rest)
  require (endsName rest.head?)
  return (token, rest)

/-! ### Directives -/

/-- Reads a row of digits as a number. -/
def readNat (t : Text) : Except Fault (Nat × Text) := do
  let digits := t.takeWhile CodePoint.isAsciiDigit
  require (digits ≠ [])
  if digitLimit < digits.length then
    throw (.breakdown (.scalar (.tooManyDigits digits.length)))
  return (Text.digitsValue digits, t.dropWhile CodePoint.isAsciiDigit)

/-- Reads the major version number and passes over the minor one. -/
def readVersion (t : Text) : Except Fault (Directive × Text) := do
  let (major, rest) ← readNat (t.dropWhile isSpace)
  require (rest.head?.any (oneOf "."))
  let (_, rest) ← readNat (rest.drop 1)
  require (endsName rest.head?)
  return (.version major, rest)

/-- Reads a handle and what it stands for. -/
def readTagHandle (t : Text) : Except Fault (Directive × Text) := do
  let (handle, rest) ← readHandle (t.dropWhile isSpace)
  require (rest.head?.any isSpace)
  let (expansion, rest) ← readTagPart (rest.dropWhile isSpace)
  require (endsName rest.head?)
  return (.tagHandle handle expansion, rest)

/-- Reads a directive line whose percent sign was taken. -/
def readDirective (t : Text) : Except Fault (Directive × Text) := do
  let name := t.takeWhile isWord
  let rest := t.dropWhile isWord
  require (name ≠ [])
  require (endsName rest.head?)
  let (directive, rest) ←
    if name = "YAML" then readVersion rest
    else if name = "TAG" then readTagHandle rest
    else pure (.unknown, rest.dropWhile (!isBreak ·))
  match skipLine? rest with
  | some rest => return (directive, rest)
  | none => .error .malformed

end SvgDeck.Yaml
