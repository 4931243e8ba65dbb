/-
Names of files.

The system knows a file by bytes, none of them zero.  A name is shown as the text that its bytes
write in UTF-8; a byte that is part of no character is shown as a surrogate which stands for it.  A
text leads back to bytes in the same way.  Zero and all other surrogates stand for no byte, so a
text that holds one of them is the name of nothing.
-/
import SvgDeck.Text.Utf8

namespace SvgDeck

namespace CodePoint

/-- The surrogate that stands for a byte which is part of no character. -/
def ofLooseByte (b : UInt8) : CodePoint :=
  ⟨0xDC00 + b.toNat, by have := b.toNat_lt; omega⟩

/-- Whether a surrogate stands for a byte.  Bytes below 0x80 are characters of their own. -/
def isLooseByte (c : CodePoint) : Bool := c.isBetween 0xDC80 0xDCFF

/-- Whether a code point may be part of a name. -/
def isNamePart (c : CodePoint) : Bool := c.isLooseByte || (!c.isSurrogate && c.val ≠ 0)

/-- The bytes that a code point stands for in a name; none if it may be part of none. -/
def nameBytes (c : CodePoint) : List UInt8 :=
  if c.isLooseByte then [UInt8.ofNat (c.val - 0xDC00)]
  else if c.isNamePart then Utf8.encodeCodePoint c
  else []

theorem zero_ne_ofNat {n : Nat} (h : n % 256 ≠ 0) : (0 : UInt8) ≠ UInt8.ofNat n := by
  intro heq
  have hval := congrArg UInt8.toNat heq
  rw [UInt8.toNat_ofNat'] at hval
  exact h hval.symm

theorem zero_not_mem_encodeCodePoint {c : CodePoint} (h : c.val ≠ 0) :
    0 ∉ Utf8.encodeCodePoint c := by
  have hlt := c.isLt
  -- The first byte is at most 0xF4, and all others are at least 0x80.
  have htail : ∀ shift, (0 : UInt8) ≠ UInt8.ofNat (0x80 + (c.val >>> shift) % 64) :=
    fun shift => zero_ne_ofNat (by omega)
  rw [Utf8.encodeCodePoint]
  split
  · rw [List.mem_singleton]
    exact zero_ne_ofNat (by omega)
  · split
    · simp only [List.mem_cons, List.not_mem_nil, or_false, not_or]
      exact ⟨zero_ne_ofNat (by omega), htail 0⟩
    · split
      · simp only [List.mem_cons, List.not_mem_nil, or_false, not_or]
        exact ⟨zero_ne_ofNat (by omega), htail 6, htail 0⟩
      · simp only [List.mem_cons, List.not_mem_nil, or_false, not_or]
        exact ⟨zero_ne_ofNat (by omega), htail 12, htail 6, htail 0⟩

theorem zero_not_mem_nameBytes (c : CodePoint) : 0 ∉ c.nameBytes := by
  rw [nameBytes]
  by_cases hb : c.isLooseByte = true
  · rw [if_pos hb, List.mem_singleton]
    simp only [isLooseByte, isBetween, Bool.and_eq_true, decide_eq_true_eq] at hb
    exact zero_ne_ofNat (by omega)
  · rw [if_neg hb]
    by_cases hp : c.isNamePart = true
    · rw [if_pos hp]
      refine zero_not_mem_encodeCodePoint fun hzero => ?_
      simp [isNamePart, hb, hzero] at hp
    · rw [if_neg hp]
      exact List.not_mem_nil

end CodePoint

/-- The name of a file, as the system has it. -/
structure Name where
  bytes : List UInt8
  zero_not_mem : 0 ∉ bytes
deriving DecidableEq

/-- A place: the names that lead to it from the top folder. -/
abbrev Location := List Name

/-- Why a text is the name of nothing. -/
inductive NameFault where
  | surrogates (u : Utf8.Unencodable)
  | zero
deriving DecidableEq

def NameFault.message : NameFault → Text
  | .surrogates u => u.message
  | .zero => "embedded null byte"

namespace Name

/-- The bytes of a text; what stands for no byte is left out. -/
def ofText (t : Text) : Name where
  bytes := t.flatMap CodePoint.nameBytes
  zero_not_mem := by
    rw [List.mem_flatMap]
    rintro ⟨c, _, h⟩
    exact c.zero_not_mem_nameBytes h

instance : Coe (List CodePoint) Name := ⟨ofText⟩

/-- What stands for no byte in a text: the first run of surrogates that does not begin with one for
a byte, or else a zero. -/
def fault? (t : Text) : Option NameFault :=
  match t.dropWhile fun c => !c.isSurrogate || c.isLooseByte with
  | c :: rest =>
    some (.surrogates
      ⟨t.length - (rest.length + 1), 1 + (rest.takeWhile (·.isSurrogate)).length, c⟩)
  | [] => if t.any (·.val = 0) then some .zero else none

/-- The text that bytes write, when the first `passed` belong to a character that was read. -/
def read : (passed : Nat) → List UInt8 → Text
  | _, [] => []
  | passed + 1, _ :: rest => read passed rest
  | 0, b :: rest =>
    match Utf8.character? (b :: rest) with
    | some c => c :: read ((Utf8.encodeCodePoint c).length - 1) rest
    | none => CodePoint.ofLooseByte b :: read 0 rest

/-- The name as it is shown. -/
def text (n : Name) : Text := read 0 n.bytes

end Name

end SvgDeck
