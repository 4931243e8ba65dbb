/-
Texts that can be written to a file.

A text has UTF-8 bytes exactly if it holds no surrogate (`encode_eq_ok`).  Surrogates only
enter by an escape of a data file: a text that was read from UTF-8 bytes holds none
(`isUnicode_of_decodeLines`), and putting texts together, cutting them and printing
numbers never makes one.
-/
import SvgDeck.Text.Digit
import SvgDeck.Text.Search
import SvgDeck.Text.Utf8
import SvgDeck.Proofs.FirstFault
import Mathlib.Algebra.Group.Nat.Defs
import Mathlib.Data.List.TakeWhile

namespace SvgDeck

/-! ### Texts without surrogates -/

theorem CodePoint.isSurrogate_eq_false {c : CodePoint} :
    c.isSurrogate = false ↔ c.val < 0xD800 ∨ 0xDFFF < c.val := by
  rw [isSurrogate, Bool.and_eq_false_iff, decide_eq_false_iff_not, decide_eq_false_iff_not]
  omega

theorem CodePoint.isSurrogate_of_lt {c : CodePoint} (h : c.val < 0xD800) :
    c.isSurrogate = false := isSurrogate_eq_false.mpr (Or.inl h)

@[simp] theorem CodePoint.isSurrogate_ofChar (c : Char) : (ofChar c).isSurrogate = false := by
  have hvalid : c.val.toNat < 0xD800 ∨ 0xDFFF < c.val.toNat ∧ c.val.toNat < 0x110000 := c.valid
  exact isSurrogate_eq_false.mpr (hvalid.imp_right And.left)

namespace Text

/-- The text holds no surrogate. -/
def IsUnicode (t : Text) : Prop := ∀ c ∈ t, c.isSurrogate = false

@[simp] theorem isUnicode_nil : IsUnicode [] := fun _ h => absurd h List.not_mem_nil

@[simp] theorem isUnicode_cons {c : CodePoint} {t : Text} :
    IsUnicode (c :: t) ↔ c.isSurrogate = false ∧ IsUnicode t := List.forall_mem_cons

@[simp] theorem isUnicode_append {s t : Text} :
    IsUnicode (s ++ t) ↔ IsUnicode s ∧ IsUnicode t := List.forall_mem_append

@[simp] theorem isUnicode_ofString (s : String) : IsUnicode (ofString s) := by
  refine List.forall_mem_map.mpr fun c _ => ?_
  exact CodePoint.isSurrogate_ofChar c

theorem IsUnicode.of_subset {s t : Text} (ht : IsUnicode t) (h : s ⊆ t) : IsUnicode s :=
  fun c hc => ht c (h hc)

theorem any_isSurrogate_eq_false {t : Text} :
    t.any CodePoint.isSurrogate = false ↔ IsUnicode t := by
  simp [IsUnicode]

theorem isUnicode_flatMap {α : Type} {l : List α} {f : α → Text} :
    IsUnicode (l.flatMap f) ↔ ∀ a ∈ l, IsUnicode (f a) := by
  simp only [IsUnicode, List.mem_flatMap]
  constructor
  · exact fun h a ha c hc => h c ⟨a, ha, hc⟩
  · rintro h c ⟨a, ha, hc⟩
    exact h a ha c hc

theorem isUnicode_flatten {l : List Text} : IsUnicode l.flatten ↔ ∀ t ∈ l, IsUnicode t := by
  rw [← List.flatMap_id]
  exact isUnicode_flatMap

/-- Separators between the parts make no difference. -/
theorem isUnicode_join {separator : Text} (hs : IsUnicode separator) {parts : List Text} :
    IsUnicode (join separator parts) ↔ ∀ t ∈ parts, IsUnicode t := by
  rw [join]
  induction parts with
  | nil => simp
  | cons part parts ih =>
    by_cases hp : parts = []
    · simp [hp]
    · rw [List.intercalate_cons_of_ne_nil hp, List.forall_mem_cons]
      simp [ih, hs]

@[simp] theorem isUnicode_lines {parts : List Text} :
    IsUnicode (lines parts) ↔ ∀ t ∈ parts, IsUnicode t := isUnicode_join (by simp)

@[simp] theorem isUnicode_ofLines (parts : List String) : IsUnicode (ofLines parts) := by
  rw [ofLines, isUnicode_lines]
  exact List.forall_mem_map.mpr fun s _ => isUnicode_ofString s

@[simp] theorem isUnicode_ofNatBase (base n : Nat) : IsUnicode (ofNatBase base n) :=
  List.forall_mem_map.mpr fun c _ => CodePoint.isSurrogate_ofChar c

@[simp] theorem isUnicode_ofNat (n : Nat) : IsUnicode (ofNat n) := isUnicode_ofNatBase 10 n

@[simp] theorem isUnicode_replicate {n : Nat} {c : Char} :
    IsUnicode (List.replicate n (CodePoint.ofChar c)) := by
  intro d hd
  rw [(List.mem_replicate.mp hd).2]
  exact CodePoint.isSurrogate_ofChar c

@[simp] theorem isUnicode_hex (width n : Nat) : IsUnicode (hex width n) := by
  simp [hex]

theorem isUnicode_of_all {p : CodePoint → Bool} (hp : ∀ c, p c = true → c.isSurrogate = false)
    {t : Text} (h : t.all p = true) : IsUnicode t :=
  fun c hc => hp c (List.all_eq_true.mp h c hc)

/-- What a text is cut into is part of it. -/
theorem isUnicode_of_cut? {mark t before rest : Text} (h : cut? mark t = some (before, rest))
    (ht : IsUnicode t) : IsUnicode before ∧ IsUnicode rest := by
  rw [← append_of_cut? h, isUnicode_append, isUnicode_append] at ht
  exact ⟨ht.1.1, ht.2⟩

theorem isUnicode_reverse {t : Text} : IsUnicode t.reverse ↔ IsUnicode t := by
  simp [IsUnicode]

theorem isUnicode_of_cutLast? {mark t before rest : Text}
    (h : cutLast? mark t = some (before, rest)) (ht : IsUnicode t) :
    IsUnicode before ∧ IsUnicode rest := by
  obtain ⟨⟨r, b⟩, hcut, he⟩ := Option.map_eq_some_iff.mp h
  cases he
  have hparts := isUnicode_of_cut? hcut (isUnicode_reverse.mpr ht)
  exact ⟨isUnicode_reverse.mpr hparts.2, isUnicode_reverse.mpr hparts.1⟩

end Text

/-! ### Digits -/

theorem CodePoint.isSurrogate_of_isDigit {c : CodePoint} (h : c.isDigit = true) :
    c.isSurrogate = false := by
  -- No row of ten digits reaches into the surrogates.
  have hzeros : ∀ z ∈ digitZeros, z + 9 < 0xD800 ∨ 0xDFFF < z := by decide
  rw [isDigit, digit?, Option.isSome_map, List.find?_isSome] at h
  obtain ⟨z, hz, hc⟩ := h
  simp only [isBetween, Bool.and_eq_true, decide_eq_true_eq] at hc
  have := hzeros z hz
  exact isSurrogate_eq_false.mpr (by omega)

namespace Utf8

/-! ### Writing -/

theorem encode_eq_ok {t : Text} {bytes : List UInt8} :
    encode t = .ok bytes ↔ t.IsUnicode ∧ t.flatMap encodeCodePoint = bytes := by
  have hdrop : t.dropWhile (!·.isSurrogate) = [] ↔ t.IsUnicode := by
    simp [List.dropWhile_eq_nil_iff, Text.IsUnicode]
  rw [encode, ← hdrop]
  cases t.dropWhile (!·.isSurrogate) with
  | nil => simp
  | cons c rest => simp

theorem fails_encode {t : Text} : Fails (encode t) ↔ ¬ t.IsUnicode := by
  rw [← not_iff_not, not_fails, not_not]
  constructor
  · rintro ⟨bytes, h⟩
    exact (encode_eq_ok.mp h).1
  · exact fun h => ⟨_, encode_eq_ok.mpr ⟨h, rfl⟩⟩

/-! ### Reading -/

section Reading

variable {value low high more v : Nat} {bytes rest : List UInt8}

/-- What a first byte of a sequence determines: the bits that it gives, and bounds for the second
byte, so that no sequence is longer than it has to be and none writes a surrogate. -/
theorem lead?_eq_some {b : Nat} {l : Lead} (h : lead? b = some l) :
    0x80 ≤ l.low ∧ l.high ≤ 0xBF ∧
      (l.more = 0 ∧ b = 0xC0 + l.bits ∧ 2 ≤ l.bits ∧ l.bits < 0x20 ∨
        l.more = 1 ∧ b = 0xE0 + l.bits ∧ l.bits < 0x10 ∧ (0 < l.bits ∨ 0xA0 ≤ l.low) ∧
          (l.bits ≠ 0xD ∨ l.high ≤ 0x9F) ∨
        l.more = 2 ∧ b = 0xF0 + l.bits ∧ l.bits < 5 ∧ (0 < l.bits ∨ 0x90 ≤ l.low) ∧
          (l.bits < 4 ∨ l.high ≤ 0x8F)) := by
  rw [lead?] at h
  split_ifs at h
  all_goals
    rw [Option.some.injEq] at h
    subst h
    simp only [true_and, false_and, Nat.reduceEqDiff, or_false, false_or]
    omega

theorem readTail_zero_eq_ok (h : readTail value low high 0 bytes = .ok (v, rest)) :
    ∃ b, bytes = b :: rest ∧ low ≤ b.toNat ∧ b.toNat ≤ high ∧ v = value * 64 + b.toNat % 64 := by
  cases bytes with
  | nil => simp [readTail] at h
  | cons b bytes =>
    rw [readTail] at h
    by_cases hb : low ≤ b.toNat ∧ b.toNat ≤ high
    · rw [if_pos hb] at h
      cases h
      exact ⟨b, rfl, hb.1, hb.2, rfl⟩
    · rw [if_neg hb] at h
      cases h

theorem readTail_succ_eq_ok (h : readTail value low high (more + 1) bytes = .ok (v, rest)) :
    ∃ b bytes', bytes = b :: bytes' ∧ low ≤ b.toNat ∧ b.toNat ≤ high ∧
      readTail (value * 64 + b.toNat % 64) 0x80 0xBF more bytes' = .ok (v, rest) := by
  cases bytes with
  | nil => simp [readTail] at h
  | cons b bytes =>
    rw [readTail] at h
    by_cases hb : low ≤ b.toNat ∧ b.toNat ≤ high
    · rw [if_pos hb] at h
      refine ⟨b, bytes, rfl, hb.1, hb.2, ?_⟩
      simp only at h
      cases hr : readTail (value * 64 + b.toNat % 64) 0x80 0xBF more bytes with
      | ok r =>
        rw [hr] at h
        exact h
      | error _ =>
        rw [hr] at h
        cases h
    · rw [if_neg hb] at h
      cases h

/-- The ranges of the second byte leave the surrogates out. -/
theorem readTail_of_lead? {b : Nat} {l : Lead} (hl : lead? b = some l)
    (h : readTail l.bits l.low l.high l.more bytes = .ok (v, rest)) : v < 0xD800 ∨ 0xDFFF < v := by
  obtain ⟨bits, low, high, more⟩ := l
  -- One case for each number of bytes; each is a matter of adding up.
  obtain ⟨hlow, hhigh, ⟨rfl, _, hbits⟩ | ⟨rfl, _, hbits⟩ | ⟨rfl, _, hbits⟩⟩ := lead?_eq_some hl
  · obtain ⟨b₂, -, h₂, h₂', hv⟩ := readTail_zero_eq_ok h
    simp only at hbits hlow hhigh h₂ h₂' hv
    omega
  · obtain ⟨b₂, _, -, h₂, h₂', h⟩ := readTail_succ_eq_ok h
    obtain ⟨b₃, -, h₃, h₃', hv⟩ := readTail_zero_eq_ok h
    simp only at hbits hlow hhigh h₂ h₂' h₃ h₃' hv
    omega
  · obtain ⟨b₂, _, -, h₂, h₂', h⟩ := readTail_succ_eq_ok h
    obtain ⟨b₃, _, -, h₃, h₃', h⟩ := readTail_succ_eq_ok h
    obtain ⟨b₄, -, h₄, h₄', hv⟩ := readTail_zero_eq_ok h
    simp only at hbits hlow hhigh h₂ h₂' h₃ h₃' h₄ h₄' hv
    omega

end Reading

theorem isUnicode_of_decodeFrom {position : Nat} {bytes : List UInt8} {t : Text}
    (h : decodeFrom position bytes = .ok t) : t.IsUnicode := by
  induction position, bytes using decodeFrom.induct generalizing t with
  | case1 position =>
    rw [decodeFrom] at h
    cases h
    exact Text.isUnicode_nil
  | case2 position b rest hb ih =>
    rw [decodeFrom, dif_pos hb] at h
    obtain ⟨t', ht', h⟩ := bind_eq_ok.mp h
    cases h
    exact Text.isUnicode_cons.mpr ⟨CodePoint.isSurrogate_of_lt (by simp only; omega), ih ht'⟩
  | case3 position b rest hb hl =>
    rw [decodeFrom, dif_neg hb, hl] at h
    cases h
  | case4 position b rest hb l hl bytes flaw hr =>
    rw [decodeFrom, dif_neg hb, hl] at h
    simp only at h
    split at h
    · cases h
    · next heq => rw [hr] at heq; cases heq
  | case5 position b rest hb l hl value after hr hv ih =>
    rw [decodeFrom, dif_neg hb, hl] at h
    simp only at h
    split at h
    · cases h
    · next value' after' heq =>
      rw [hr] at heq
      cases heq
      rw [dif_pos hv] at h
      obtain ⟨t', ht', h⟩ := bind_eq_ok.mp h
      cases h
      exact Text.isUnicode_cons.mpr
        ⟨CodePoint.isSurrogate_eq_false.mpr (readTail_of_lead? hl hr), ih ht'⟩
  | case6 position b rest hb l hl value after hr hv =>
    rw [decodeFrom, dif_neg hb, hl] at h
    simp only at h
    split at h
    · cases h
    · next value' after' heq =>
      rw [hr] at heq
      cases heq
      rw [dif_neg hv] at h
      cases h

theorem isUnicode_normaliseLineEnds {t : Text} (h : t.IsUnicode) :
    (normaliseLineEnds t).IsUnicode := by
  induction t with
  | nil => exact h
  | cons c t ih =>
    obtain ⟨hc, ht⟩ := Text.isUnicode_cons.mp h
    rw [normaliseLineEnds]
    split
    · split
      · exact ih ht
      · simp [ih ht]
    · simp [hc, ih ht]

/-- What is read from bytes holds no surrogate. -/
theorem isUnicode_of_decodeLines {bytes : List UInt8} {t : Text} (h : decodeLines bytes = .ok t) :
    t.IsUnicode := by
  rw [decodeLines, decode] at h
  cases hd : decodeFrom 0 bytes with
  | error fault =>
    rw [hd] at h
    cases h
  | ok t' =>
    rw [hd] at h
    cases h
    exact isUnicode_normaliseLineEnds (isUnicode_of_decodeFrom hd)

end Utf8

end SvgDeck
