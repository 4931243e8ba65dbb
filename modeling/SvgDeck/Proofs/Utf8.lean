/-
Reading back what was written.

A code point that is no surrogate is read back from its bytes, whatever stands behind them
(`decodeFrom_encodeCodePoint`), so every text with a UTF-8 form is read back from it
(`decode_of_isUnicode`).  A file is read with its line ends made equal, so there it takes a text
without carriage returns (`decodeLines_of_isUnicode`); reading block by block makes no difference to
a text that fits into one block (`decodeBlockLines_of_isUnicode`).
-/
import SvgDeck.Proofs.Unicode

namespace SvgDeck.Utf8

variable {c : CodePoint} {t : Text} {b : UInt8} {bytes rest : List UInt8} {v : Nat}

/-! ### One code point -/

theorem encodeCodePoint_one (hc : c.val < 0x80) : encodeCodePoint c = [UInt8.ofNat c.val] := by
  rw [encodeCodePoint, if_pos hc]

theorem encodeCodePoint_two (hc : 0x80 ≤ c.val) (hc' : c.val < 0x800) :
    encodeCodePoint c =
      [UInt8.ofNat (0xC0 + c.val / 64), UInt8.ofNat (0x80 + c.val % 64)] := by
  rw [encodeCodePoint, if_neg (by omega), if_pos hc']
  simp

theorem encodeCodePoint_three (hc : 0x800 ≤ c.val) (hc' : c.val < 0x10000) :
    encodeCodePoint c = [UInt8.ofNat (0xE0 + c.val / 4096),
      UInt8.ofNat (0x80 + c.val / 64 % 64), UInt8.ofNat (0x80 + c.val % 64)] := by
  rw [encodeCodePoint, if_neg (by omega), if_neg (by omega), if_pos hc']
  simp [Nat.shiftRight_eq_div_pow]

theorem encodeCodePoint_four (hc : 0x10000 ≤ c.val) :
    encodeCodePoint c = [UInt8.ofNat (0xF0 + c.val / 262144),
      UInt8.ofNat (0x80 + c.val / 4096 % 64), UInt8.ofNat (0x80 + c.val / 64 % 64),
      UInt8.ofNat (0x80 + c.val % 64)] := by
  rw [encodeCodePoint, if_neg (by omega), if_neg (by omega), if_neg (by omega)]
  simp [Nat.shiftRight_eq_div_pow]

/-- Reads the last byte of a sequence. -/
theorem readTail_last {value low high : Nat} (hlow : low ≤ b.toNat) (hhigh : b.toNat ≤ high) :
    readTail value low high 0 (b :: rest) = .ok (value * 64 + b.toNat % 64, rest) := by
  rw [readTail, if_pos ⟨hlow, hhigh⟩]

/-- Reads a byte before the last one of a sequence. -/
theorem readTail_more {value low high more : Nat} {r : Nat × List UInt8} (hlow : low ≤ b.toNat)
    (hhigh : b.toNat ≤ high)
    (h : readTail (value * 64 + b.toNat % 64) 0x80 0xBF more bytes = .ok r) :
    readTail value low high (more + 1) (b :: bytes) = .ok r := by
  rw [readTail, if_pos ⟨hlow, hhigh⟩]
  simp only [h]

/-- A sequence of more than one byte. -/
theorem decodeFrom_of_lead {bits low high more : Nat} (hb : 0x80 ≤ b.toNat)
    (hl : lead? b.toNat = some ⟨bits, low, high, more⟩)
    (hr : readTail bits low high more bytes = .ok (c.val, rest))
    (h : ∀ position, decodeFrom position rest = .ok t) (position : Nat) :
    decodeFrom position (b :: bytes) = .ok (c :: t) := by
  rw [decodeFrom, dif_neg (by omega), hl]
  simp only
  split
  · next heq =>
    rw [hr] at heq
    cases heq
  · next value after heq =>
    rw [hr, Except.ok.injEq, Prod.mk.injEq] at heq
    obtain ⟨rfl, rfl⟩ := heq
    rw [dif_pos c.isLt, h]
    rfl

theorem lead?_two (h : 0x80 ≤ v) (h' : v < 0x800) :
    lead? (0xC0 + v / 64) = some ⟨v / 64, 0x80, 0xBF, 0⟩ := by
  rw [lead?, if_pos (by omega), Nat.add_sub_cancel_left]

/-- The second of three bytes is in the range of the first, which leaves out the surrogates. -/
theorem exists_lead?_three (h : 0x800 ≤ v) (h' : v < 0x10000) (hs : v < 0xD800 ∨ 0xDFFF < v) :
    ∃ low high, lead? (0xE0 + v / 4096) = some ⟨v / 4096, low, high, 1⟩ ∧
      low ≤ 0x80 + v / 64 % 64 ∧ 0x80 + v / 64 % 64 ≤ high := by
  rw [lead?, if_neg (by omega)]
  by_cases hfirst : v / 4096 = 0
  · refine ⟨0xA0, 0xBF, ?_, by omega, by omega⟩
    rw [if_pos (by omega), hfirst]
  · rw [if_neg (by omega)]
    by_cases hsurrogates : v / 4096 = 0xD
    · refine ⟨0x80, 0x9F, ?_, by omega, by omega⟩
      rw [if_pos (by omega), hsurrogates]
    · refine ⟨0x80, 0xBF, ?_, by omega, by omega⟩
      rw [if_neg (by omega), if_pos (by omega), Nat.add_sub_cancel_left]

/-- The second of four bytes is in the range of the first, which ends with the last code point. -/
theorem exists_lead?_four (h : 0x10000 ≤ v) (h' : v < 0x110000) :
    ∃ low high, lead? (0xF0 + v / 262144) = some ⟨v / 262144, low, high, 2⟩ ∧
      low ≤ 0x80 + v / 4096 % 64 ∧ 0x80 + v / 4096 % 64 ≤ high := by
  rw [lead?, if_neg (by omega), if_neg (by omega), if_neg (by omega), if_neg (by omega)]
  by_cases hfirst : v / 262144 = 0
  · refine ⟨0x90, 0xBF, ?_, by omega, by omega⟩
    rw [if_pos (by omega), hfirst]
  · rw [if_neg (by omega)]
    by_cases hlast : v / 262144 = 4
    · refine ⟨0x80, 0x8F, ?_, by omega, by omega⟩
      rw [if_neg (by omega), if_pos (by omega), hlast]
    · refine ⟨0x80, 0xBF, ?_, by omega, by omega⟩
      rw [if_pos (by omega), Nat.add_sub_cancel_left]

section Bytes

variable (h : ∀ position, decodeFrom position rest = .ok t) (position : Nat)

include h

theorem decodeFrom_one (hc : c.val < 0x80) :
    decodeFrom position (encodeCodePoint c ++ rest) = .ok (c :: t) := by
  have hb := UInt8.toNat_ofNat_of_lt' (show c.val < 256 by omega)
  rw [encodeCodePoint_one hc, List.singleton_append, decodeFrom, dif_pos (by omega), h]
  exact congrArg (fun d => Except.ok (d :: t)) (CodePoint.ext hb)

theorem decodeFrom_two (hc : 0x80 ≤ c.val) (hc' : c.val < 0x800) :
    decodeFrom position (encodeCodePoint c ++ rest) = .ok (c :: t) := by
  have hfirst := UInt8.toNat_ofNat_of_lt' (show 0xC0 + c.val / 64 < 256 by omega)
  have hlast := UInt8.toNat_ofNat_of_lt' (show 0x80 + c.val % 64 < 256 by omega)
  rw [encodeCodePoint_two hc hc', List.cons_append, List.singleton_append]
  refine decodeFrom_of_lead (by omega) (hfirst ▸ lead?_two hc hc') ?_ h position
  rw [readTail_last (by omega) (by omega), hlast]
  exact congrArg (fun n => Except.ok (n, rest)) (by omega)

theorem decodeFrom_three (hc : 0x800 ≤ c.val) (hc' : c.val < 0x10000)
    (hs : c.val < 0xD800 ∨ 0xDFFF < c.val) :
    decodeFrom position (encodeCodePoint c ++ rest) = .ok (c :: t) := by
  have hfirst := UInt8.toNat_ofNat_of_lt' (show 0xE0 + c.val / 4096 < 256 by omega)
  have hsecond := UInt8.toNat_ofNat_of_lt' (show 0x80 + c.val / 64 % 64 < 256 by omega)
  have hlast := UInt8.toNat_ofNat_of_lt' (show 0x80 + c.val % 64 < 256 by omega)
  obtain ⟨low, high, hlead, hlow, hhigh⟩ := exists_lead?_three hc hc' hs
  rw [encodeCodePoint_three hc hc', List.cons_append, List.cons_append, List.singleton_append]
  refine decodeFrom_of_lead (by omega) (hfirst ▸ hlead) ?_ h position
  refine readTail_more (by omega) (by omega) ?_
  rw [readTail_last (by omega) (by omega), hlast, hsecond]
  exact congrArg (fun n => Except.ok (n, rest)) (by omega)

theorem decodeFrom_four (hc : 0x10000 ≤ c.val) :
    decodeFrom position (encodeCodePoint c ++ rest) = .ok (c :: t) := by
  have hlt := c.isLt
  have hfirst := UInt8.toNat_ofNat_of_lt' (show 0xF0 + c.val / 262144 < 256 by omega)
  have hsecond := UInt8.toNat_ofNat_of_lt' (show 0x80 + c.val / 4096 % 64 < 256 by omega)
  have hthird := UInt8.toNat_ofNat_of_lt' (show 0x80 + c.val / 64 % 64 < 256 by omega)
  have hlast := UInt8.toNat_ofNat_of_lt' (show 0x80 + c.val % 64 < 256 by omega)
  obtain ⟨low, high, hlead, hlow, hhigh⟩ := exists_lead?_four hc hlt
  rw [encodeCodePoint_four hc, List.cons_append, List.cons_append, List.cons_append,
    List.singleton_append]
  refine decodeFrom_of_lead (by omega) (hfirst ▸ hlead) ?_ h position
  refine readTail_more (by omega) (by omega) (readTail_more (by omega) (by omega) ?_)
  rw [readTail_last (by omega) (by omega), hlast, hthird, hsecond]
  exact congrArg (fun n => Except.ok (n, rest)) (by omega)

/-- **A code point is read back from its bytes.** -/
theorem decodeFrom_encodeCodePoint (hc : c.isSurrogate = false) :
    decodeFrom position (encodeCodePoint c ++ rest) = .ok (c :: t) := by
  have hs := CodePoint.isSurrogate_eq_false.mp hc
  by_cases h1 : c.val < 0x80
  · exact decodeFrom_one h position h1
  · by_cases h2 : c.val < 0x800
    · exact decodeFrom_two h position (by omega) h2
    · by_cases h3 : c.val < 0x10000
      · exact decodeFrom_three h position (by omega) h3 hs
      · exact decodeFrom_four h position (by omega)

end Bytes

/-! ### Texts and files -/

/-- **A text is read back from its bytes** if it has a UTF-8 form. -/
theorem decode_of_isUnicode (h : t.IsUnicode) : decode (t.flatMap encodeCodePoint) = .ok t := by
  have hfrom : ∀ position, decodeFrom position (t.flatMap encodeCodePoint) = .ok t := by
    induction t with
    | nil =>
      intro position
      rw [List.flatMap_nil, decodeFrom]
    | cons c t ih =>
      obtain ⟨hc, ht⟩ := Text.isUnicode_cons.mp h
      rw [List.flatMap_cons]
      exact fun position => decodeFrom_encodeCodePoint (ih ht) position hc
  exact hfrom 0

theorem normaliseLineEnds_of_not_mem (h : CodePoint.ofChar '\r' ∉ t) : normaliseLineEnds t = t := by
  induction t with
  | nil => rfl
  | cons c t ih =>
    rw [List.mem_cons, not_or] at h
    rw [normaliseLineEnds, if_neg (Ne.symm h.1), ih h.2]

theorem decodeLines_of_isUnicode (h : t.IsUnicode) (hr : CodePoint.ofChar '\r' ∉ t) :
    decodeLines (t.flatMap encodeCodePoint) = .ok t := by
  rw [decodeLines, decode_of_isUnicode h, Except.map, normaliseLineEnds_of_not_mem hr]

/-- What fits into one block is read as a whole. -/
theorem decodeBlocks_of_length_le (h : bytes.length ≤ blockSize) (hd : decode bytes = .ok t) :
    decodeBlocks [] bytes = .ok t := by
  have hnil : decodeBlocks [] [] = .ok [] := by
    rw [decodeBlocks, dif_pos rfl, decode, decodeFrom]
  by_cases hbytes : bytes = []
  · rw [decodeBlocks, dif_pos hbytes, ← hbytes, hd]
  · rw [decodeBlocks, dif_neg hbytes, List.take_of_length_le h, List.drop_of_length_le h,
      decodeBlock]
    simp only [List.nil_append, hd, ok_bind, hnil, List.append_nil, pure_eq_ok]

theorem decodeBlockLines_of_isUnicode (h : t.IsUnicode) (hr : CodePoint.ofChar '\r' ∉ t)
    (hlength : (t.flatMap encodeCodePoint).length ≤ blockSize) :
    decodeBlockLines (t.flatMap encodeCodePoint) = .ok t := by
  rw [decodeBlockLines, decodeBlocks_of_length_le hlength (decode_of_isUnicode h), Except.map,
    normaliseLineEnds_of_not_mem hr]

end SvgDeck.Utf8
