/-
Texts as bytes.

`encode` gives the UTF-8 bytes of a text, or the first run of surrogates, which
have none.  `decode` is its strict reading: no overlong forms, no surrogates and
nothing above U+10FFFF.  A fault names the bytes of the broken sequence and what
is wrong with them.  `normaliseLineEnds` is applied to text that was read from a
file.
-/
import SvgDeck.Text.Quoted

namespace SvgDeck.Utf8

/-- What is wrong with a broken sequence of bytes. -/
inductive Flaw where
  /-- A byte that starts no sequence. -/
  | start
  /-- A byte that cannot go on with the sequence. -/
  | continuation
  /-- The bytes end inside a sequence. -/
  | ending

/-- A broken sequence: its position, its bytes, and what is wrong. -/
structure Fault where
  position : Nat
  bytes : List UInt8
  flaw : Flaw

/-- The first of a run of code points without UTF-8 form, and the length of the run. -/
structure Unencodable where
  position : Nat
  length : Nat
  first : CodePoint
deriving DecidableEq

def Flaw.message : Flaw → Text
  | .start => "invalid start byte"
  | .continuation => "invalid continuation byte"
  | .ending => "unexpected end of data"

/-- The fault in words; a single byte is shown. -/
def Fault.message (f : Fault) : Text :=
  let place : Text := match f.bytes with
    | [b] => " byte 0x" ++ Text.hex 2 b.toNat ++ " in position " ++ Text.ofNat f.position
    | bytes => " bytes in position " ++ Text.ofNat f.position ++ "-" ++
        Text.ofNat (f.position + bytes.length - 1)
  "'utf-8' codec can't decode" ++ place ++ ": " ++ f.flaw.message

/-- The run in words; a single code point is shown. -/
def Unencodable.message (u : Unencodable) : Text :=
  let place : Text :=
    if u.length = 1 then
      " character '" ++ Text.escapeQuoted '\'' u.first ++ "' in position " ++ Text.ofNat u.position
    else
      " characters in position " ++ Text.ofNat u.position ++ "-" ++
        Text.ofNat (u.position + u.length - 1)
  "'utf-8' codec can't encode" ++ place ++ ": surrogates not allowed"

/-! ### Writing -/

/-- The bytes of one code point, surrogates included. -/
def encodeCodePoint (c : CodePoint) : List UInt8 :=
  let tail (shift : Nat) : UInt8 := UInt8.ofNat (0x80 + (c.val >>> shift) % 64)
  if c.val < 0x80 then [UInt8.ofNat c.val]
  else if c.val < 0x800 then [UInt8.ofNat (0xC0 + c.val / 64), tail 0]
  else if c.val < 0x10000 then [UInt8.ofNat (0xE0 + c.val / 4096), tail 6, tail 0]
  else [UInt8.ofNat (0xF0 + c.val / 262144), tail 12, tail 6, tail 0]

/-- The bytes of a text without surrogates. -/
def encode (t : Text) : Except Unencodable (List UInt8) :=
  match t.dropWhile (!·.isSurrogate) with
  | [] => .ok (t.flatMap encodeCodePoint)
  | c :: rest =>
    .error ⟨t.length - (rest.length + 1), 1 + (rest.takeWhile (·.isSurrogate)).length, c⟩

/-! ### Reading -/

/-- How a sequence goes on after its first byte: the bits that byte gives, the range of the
second byte, and how many bytes follow the second. -/
structure Lead where
  bits : Nat
  low : Nat
  high : Nat
  more : Nat

/-- The sequences of more than one byte, by their first byte. -/
def lead? (b : Nat) : Option Lead :=
  if 0xC2 ≤ b ∧ b ≤ 0xDF then some ⟨b - 0xC0, 0x80, 0xBF, 0⟩
  else if b = 0xE0 then some ⟨0, 0xA0, 0xBF, 1⟩
  else if b = 0xED then some ⟨0xD, 0x80, 0x9F, 1⟩
  else if 0xE1 ≤ b ∧ b ≤ 0xEF then some ⟨b - 0xE0, 0x80, 0xBF, 1⟩
  else if b = 0xF0 then some ⟨0, 0x90, 0xBF, 2⟩
  else if 0xF1 ≤ b ∧ b ≤ 0xF3 then some ⟨b - 0xF0, 0x80, 0xBF, 2⟩
  else if b = 0xF4 then some ⟨4, 0x80, 0x8F, 2⟩
  else none

/-- Reads the bytes that follow a first byte: their value is added to `value`, and what is
left is returned.  On a fault, the bytes of the sequence that were read and what is wrong. -/
def readTail (value low high : Nat) :
    Nat → List UInt8 → Except (List UInt8 × Flaw) (Nat × List UInt8)
  | _, [] => .error ([], .ending)
  | more, b :: rest =>
    if low ≤ b.toNat ∧ b.toNat ≤ high then
      let value := value * 64 + b.toNat % 64
      match more with
      | 0 => .ok (value, rest)
      | more + 1 =>
        match readTail value 0x80 0xBF more rest with
        | .ok r => .ok r
        | .error (bytes, flaw) => .error (b :: bytes, flaw)
    else .error ([], .continuation)

theorem readTail_length {value low high more : Nat} {bytes rest : List UInt8} {v : Nat}
    (h : readTail value low high more bytes = .ok (v, rest)) : rest.length < bytes.length := by
  induction more generalizing value low high bytes with
  | zero =>
    cases bytes with
    | nil => simp [readTail] at h
    | cons b r =>
      simp only [readTail] at h
      split at h
      · cases h; simp
      · cases h
  | succ n ih =>
    cases bytes with
    | nil => simp [readTail] at h
    | cons b r =>
      simp only [readTail] at h
      split at h
      · split at h
        · next heq => cases h; have := ih heq; simp only [List.length_cons]; omega
        · cases h
      · cases h

/-- Reads bytes that start at `position`. -/
def decodeFrom (position : Nat) : List UInt8 → Except Fault Text
  | [] => .ok []
  | b :: rest =>
    if h : b.toNat < 0x80 then do
      let t ← decodeFrom (position + 1) rest
      return ⟨b.toNat, by omega⟩ :: t
    else
      match lead? b.toNat with
      | none => .error ⟨position, [b], .start⟩
      | some l =>
        match hr : readTail l.bits l.low l.high l.more rest with
        | .error (bytes, flaw) => .error ⟨position, b :: bytes, flaw⟩
        | .ok (value, after) =>
          if hv : value < 0x110000 then do
            let t ← decodeFrom (position + 2 + l.more) after
            return ⟨value, hv⟩ :: t
          else .error ⟨position, [b], .start⟩
termination_by bytes => bytes.length
decreasing_by
  · simp
  · have := readTail_length hr
    simp only [List.length_cons]
    omega

/-- The character that bytes begin with. -/
def character? : List UInt8 → Option CodePoint
  | [] => none
  | b :: rest =>
    if b.toNat < 0x80 then CodePoint.ofNat? b.toNat
    else do
      let l ← lead? b.toNat
      let (value, _) ← (readTail l.bits l.low l.high l.more rest).toOption
      CodePoint.ofNat? value

/-- The text that the bytes write, by the strict rules. -/
def decode (bytes : List UInt8) : Except Fault Text := decodeFrom 0 bytes

/-- Every line end, be it a line feed, a carriage return or both, becomes a line feed. -/
def normaliseLineEnds : Text → Text
  | [] => []
  | c :: rest =>
    if c = '\r' then
      if rest.head? = some (CodePoint.ofChar '\n') then normaliseLineEnds rest
      else '\n' :: normaliseLineEnds rest
    else c :: normaliseLineEnds rest

/-- The text of a file: strict UTF-8 with its line ends made equal. -/
def decodeLines (bytes : List UInt8) : Except Fault Text :=
  (decode bytes).map normaliseLineEnds

/-! ### Reading block by block -/

/-- The number of bytes in a block. -/
def blockSize : Nat := 8192

/-- Whether bytes could be the front of a surrogate, had it a form. -/
def isSurrogateFront : List UInt8 → Bool
  | [a, b] => a = 0xED && 0xA0 ≤ b && b ≤ 0xBF
  | _ => false

/-- Whether a sequence that `rest` begins with, broken in a given way, may still go on in the next
block.  The front of a surrogate counts as a sequence that does. -/
def isLeftOpen (rest : List UInt8) : Flaw → Bool
  | .start => false
  | .continuation => isSurrogateFront rest
  | .ending => true

/-- Reads one block behind the bytes `open_` of a sequence that the block before left open: the text,
and the bytes that are left open now. -/
def decodeBlock (open_ block : List UInt8) : Except Fault (Text × List UInt8) :=
  let bytes := open_ ++ block
  match decode bytes with
  | .ok t => .ok (t, [])
  | .error f =>
    let rest := bytes.drop f.position
    if isLeftOpen rest f.flaw then (decode (bytes.take f.position)).map fun t => (t, rest)
    else .error f

/-- Reads bytes block by block.  The position of a fault counts from the start of its block, so a
sequence that is left open at the end has the position zero. -/
def decodeBlocks (open_ bytes : List UInt8) : Except Fault Text :=
  if _h : bytes = [] then decode open_
  else do
    let (t, open_) ← decodeBlock open_ (bytes.take blockSize)
    let more ← decodeBlocks open_ (bytes.drop blockSize)
    return t ++ more
termination_by bytes.length
decreasing_by
  have := List.length_pos_iff.2 _h
  simp only [List.length_drop, blockSize]
  omega

/-- The text of a file that is read block by block, with its line ends made equal. -/
def decodeBlockLines (bytes : List UInt8) : Except Fault Text :=
  (decodeBlocks [] bytes).map normaliseLineEnds

end SvgDeck.Utf8
