/-
Names and the texts that show them.

Every name is read back from the text that shows it (`ofText_text`), so different names are shown
differently (`text_injective`), also those whose bytes write no text: what a sequence of bytes is
read as gives just these bytes when it is written (`exists_append_of_character?`).  A text that
shows a name holds nothing that stands for no byte (`isName_text`), and exactly such texts are found
to be names (`fault?_eq_none`).
-/
import SvgDeck.Folder.Name
import SvgDeck.Proofs.Utf8

namespace SvgDeck

/-! ### The character that bytes begin with -/

namespace Utf8

variable {b : UInt8} {bytes rest : List UInt8} {value low high more v : Nat} {c : CodePoint}

theorem encodeCodePoint_ne_nil (c : CodePoint) : encodeCodePoint c ≠ [] := by
  rw [encodeCodePoint]
  split_ifs <;> exact List.cons_ne_nil _ _

theorem eq_ofNat {n : Nat} (h : b.toNat = n) : b = UInt8.ofNat n := by
  rw [← h, UInt8.ofNat_toNat]

/-- The bytes of a sequence are those of the code point that it is read as. -/
theorem exists_append_of_readTail {l : Lead} (hl : lead? b.toNat = some l)
    (hr : readTail l.bits l.low l.high l.more bytes = .ok (c.val, rest)) :
    c.isSurrogate = false ∧ b :: bytes = encodeCodePoint c ++ rest := by
  refine ⟨CodePoint.isSurrogate_eq_false.mpr (readTail_of_lead? hl hr), ?_⟩
  obtain ⟨bits, low, high, more⟩ := l
  obtain ⟨hlow, hhigh, ⟨rfl, hb, h⟩ | ⟨rfl, hb, h⟩ | ⟨rfl, hb, h⟩⟩ := lead?_eq_some hl
  · obtain ⟨b₂, rfl, h₂, h₂', hv⟩ := readTail_zero_eq_ok hr
    simp only at hb h hlow hhigh h₂ h₂' hv
    rw [encodeCodePoint_two (by omega) (by omega), eq_ofNat (b := b) (n := 0xC0 + c.val / 64)
      (by omega), eq_ofNat (b := b₂) (n := 0x80 + c.val % 64) (by omega)]
    rfl
  · obtain ⟨b₂, _, rfl, h₂, h₂', hr⟩ := readTail_succ_eq_ok hr
    obtain ⟨b₃, rfl, h₃, h₃', hv⟩ := readTail_zero_eq_ok hr
    simp only at hb h hlow hhigh h₂ h₂' h₃ h₃' hv
    rw [encodeCodePoint_three (by omega) (by omega), eq_ofNat (b := b) (n := 0xE0 + c.val / 4096)
      (by omega), eq_ofNat (b := b₂) (n := 0x80 + c.val / 64 % 64) (by omega),
      eq_ofNat (b := b₃) (n := 0x80 + c.val % 64) (by omega)]
    rfl
  · obtain ⟨b₂, _, rfl, h₂, h₂', hr⟩ := readTail_succ_eq_ok hr
    obtain ⟨b₃, _, rfl, h₃, h₃', hr⟩ := readTail_succ_eq_ok hr
    obtain ⟨b₄, rfl, h₄, h₄', hv⟩ := readTail_zero_eq_ok hr
    simp only at hb h hlow hhigh h₂ h₂' h₃ h₃' h₄ h₄' hv
    rw [encodeCodePoint_four (by omega), eq_ofNat (b := b) (n := 0xF0 + c.val / 262144)
      (by omega), eq_ofNat (b := b₂) (n := 0x80 + c.val / 4096 % 64) (by omega),
      eq_ofNat (b := b₃) (n := 0x80 + c.val / 64 % 64) (by omega),
      eq_ofNat (b := b₄) (n := 0x80 + c.val % 64) (by omega)]
    rfl

theorem eq_of_ofNat? {n : Nat} (h : CodePoint.ofNat? n = some c) : c.val = n := by
  rw [CodePoint.ofNat?] at h
  split at h
  · cases h
    rfl
  · cases h

/-- **What bytes are read as is written by these bytes.** -/
theorem exists_append_of_character? (h : character? bytes = some c) :
    c.isSurrogate = false ∧ ∃ rest, bytes = encodeCodePoint c ++ rest := by
  cases bytes with
  | nil => cases h
  | cons b bytes =>
    rw [character?] at h
    by_cases hb : b.toNat < 0x80
    · rw [if_pos hb] at h
      have hc := eq_of_ofNat? h
      refine ⟨CodePoint.isSurrogate_of_lt (by omega), bytes, ?_⟩
      rw [encodeCodePoint_one (by omega), hc, UInt8.ofNat_toNat]
      rfl
    · rw [if_neg hb, Option.bind_eq_bind, Option.bind_eq_some_iff] at h
      obtain ⟨l, hl, h⟩ := h
      rw [Option.bind_eq_bind, Option.bind_eq_some_iff] at h
      obtain ⟨⟨value, rest⟩, hr, h⟩ := h
      obtain ⟨hs, heq⟩ := exists_append_of_readTail hl (eq_of_ofNat? h ▸ toOption_eq_some.mp hr)
      exact ⟨hs, rest, heq⟩

/-- Only a byte that is no character of its own can begin with no character. -/
theorem le_of_character?_eq_none (h : character? (b :: bytes) = none) : 0x80 ≤ b.toNat := by
  by_contra hb
  rw [character?, if_pos (by omega), CodePoint.ofNat?, dif_pos (by omega)] at h
  cases h

end Utf8

/-! ### Code points of names -/

namespace CodePoint

variable {c : CodePoint} {b : UInt8}

theorem isLooseByte_ofLooseByte (h : 0x80 ≤ b.toNat) : (ofLooseByte b).isLooseByte = true := by
  have hlt := b.toNat_lt
  rw [isLooseByte, isBetween, ofLooseByte, Bool.and_eq_true, decide_eq_true_eq, decide_eq_true_eq]
  simp only
  omega

theorem nameBytes_ofLooseByte (h : 0x80 ≤ b.toNat) : (ofLooseByte b).nameBytes = [b] := by
  rw [nameBytes, if_pos (isLooseByte_ofLooseByte h), ofLooseByte]
  simp

theorem isSurrogate_of_isLooseByte (h : c.isLooseByte = true) : c.isSurrogate = true := by
  simp only [isLooseByte, isSurrogate, isBetween, Bool.and_eq_true, decide_eq_true_eq] at *
  omega

theorem isLooseByte_of_not_isSurrogate (h : c.isSurrogate = false) : c.isLooseByte = false := by
  by_contra hb
  rw [isSurrogate_of_isLooseByte (eq_true_of_ne_false hb)] at h
  cases h

theorem isNamePart_of_not_isSurrogate (h : c.isSurrogate = false) (hzero : c.val ≠ 0) :
    c.isNamePart = true := by
  simp [isNamePart, h, hzero]

/-- A character stands for the bytes that write it. -/
theorem nameBytes_of_not_isSurrogate (h : c.isSurrogate = false) (hzero : c.val ≠ 0) :
    c.nameBytes = Utf8.encodeCodePoint c := by
  rw [nameBytes, isLooseByte_of_not_isSurrogate h, isNamePart_of_not_isSurrogate h hzero]
  rfl

theorem nameBytes_of_lt (h : c.val < 0x80) (hzero : c.val ≠ 0) :
    c.nameBytes = [UInt8.ofNat c.val] := by
  rw [nameBytes_of_not_isSurrogate (isSurrogate_of_lt (by omega)) hzero,
    Utf8.encodeCodePoint_one h]

end CodePoint

/-- Everything in the text stands for bytes of a name. -/
def Text.IsName (t : Text) : Prop := ∀ c ∈ t, c.isNamePart = true

instance (t : Text) : Decidable t.IsName :=
  inferInstanceAs (Decidable (∀ c ∈ t, c.isNamePart = true))

theorem Text.isName_append {s t : Text} : IsName (s ++ t) ↔ IsName s ∧ IsName t :=
  List.forall_mem_append

theorem Text.IsName.of_subset {s t : Text} (ht : IsName t) (h : s ⊆ t) : IsName s :=
  fun c hc => ht c (h hc)

theorem Text.IsUnicode.isName {t : Text} (h : t.IsUnicode) (hzero : ∀ c ∈ t, c.val ≠ 0) :
    t.IsName := fun c hc => CodePoint.isNamePart_of_not_isSurrogate (h c hc) (hzero c hc)

namespace Name

variable {s t : Text} {n m : Name}

theorem zero_not_mem_cons {b : UInt8} {bytes : List UInt8} (h : (0 : UInt8) ∉ b :: bytes) :
    b ≠ 0 ∧ (0 : UInt8) ∉ bytes := by
  rw [List.mem_cons, not_or] at h
  exact ⟨Ne.symm h.1, h.2⟩

/-- What is read from bytes other than zero writes them, and may stand in a name. -/
theorem flatMap_read {bytes : List UInt8} (h : 0 ∉ bytes) (passed : Nat) :
    (read passed bytes).flatMap CodePoint.nameBytes = bytes.drop passed ∧
      (read passed bytes).IsName := by
  induction bytes generalizing passed with
  | nil =>
    rw [read]
    exact ⟨by simp, fun c hc => absurd hc List.not_mem_nil⟩
  | cons b bytes ih =>
    obtain ⟨hb, hbytes⟩ := zero_not_mem_cons h
    cases passed with
    | succ passed => exact ih hbytes passed
    | zero =>
      rw [read]
      cases hc : Utf8.character? (b :: bytes) with
      | none =>
        have hbyte := Utf8.le_of_character?_eq_none hc
        obtain ⟨hread, hname⟩ := ih hbytes 0
        refine ⟨?_, List.forall_mem_cons.mpr ⟨?_, hname⟩⟩
        · rw [List.flatMap_cons, CodePoint.nameBytes_ofLooseByte hbyte, hread]
          rfl
        · rw [CodePoint.isNamePart, CodePoint.isLooseByte_ofLooseByte hbyte, Bool.true_or]
      | some c =>
        obtain ⟨hs, rest, heq⟩ := Utf8.exists_append_of_character? hc
        obtain ⟨hread, hname⟩ := ih hbytes ((Utf8.encodeCodePoint c).length - 1)
        have hzero : c.val ≠ 0 := by
          intro hzero
          rw [Utf8.encodeCodePoint_one (by omega), hzero] at heq
          exact hb (List.cons.inj heq).1
        refine ⟨?_, List.forall_mem_cons.mpr
          ⟨CodePoint.isNamePart_of_not_isSurrogate hs hzero, hname⟩⟩
        rw [List.flatMap_cons, CodePoint.nameBytes_of_not_isSurrogate hs hzero, hread]
        -- What is passed over is the rest of the character.
        obtain ⟨b', tail, htail⟩ := List.exists_cons_of_ne_nil (Utf8.encodeCodePoint_ne_nil c)
        rw [htail, List.cons_append, List.cons.injEq] at heq
        rw [htail, heq.1, heq.2]
        simp

/-! ### Texts of names -/

/-- **A name is read back from the text that shows it.** -/
theorem ofText_text (n : Name) : ofText n.text = n := by
  obtain ⟨bytes, h⟩ := n
  have hread := (flatMap_read h 0).1
  rw [List.drop_zero] at hread
  simp only [ofText, text, hread]

theorem isName_text (n : Name) : n.text.IsName := (flatMap_read n.zero_not_mem 0).2

/-- Different names are shown differently. -/
theorem text_injective (h : n.text = m.text) : n = m := by
  rw [← ofText_text n, h, ofText_text]

theorem bytes_ofText_append (s t : Text) :
    (ofText (s ++ t)).bytes = (ofText s).bytes ++ (ofText t).bytes := List.flatMap_append

/-- The texts in which nothing is found are those that show names. -/
theorem fault?_eq_none : fault? t = none ↔ t.IsName := by
  have hpart : ∀ c : CodePoint,
      c.isNamePart = true ↔ (!c.isSurrogate || c.isLooseByte) = true ∧ c.val ≠ 0 := by
    intro c
    cases hs : c.isSurrogate with
    | false => simp [CodePoint.isNamePart, hs, CodePoint.isLooseByte_of_not_isSurrogate hs]
    | true =>
      cases hb : c.isLooseByte with
      | false => simp [CodePoint.isNamePart, hs, hb]
      | true =>
        have hzero : c.val ≠ 0 := by
          intro hzero
          rw [CodePoint.isSurrogate_of_lt (by omega)] at hs
          cases hs
        simp [CodePoint.isNamePart, hs, hb, hzero]
  simp only [Text.IsName, hpart]
  rw [fault?]
  cases hdrop : t.dropWhile fun c => !c.isSurrogate || c.isLooseByte with
  | cons c rest =>
    refine iff_of_false (by simp) fun h => ?_
    have hall : t.dropWhile (fun c => !c.isSurrogate || c.isLooseByte) = [] :=
      List.dropWhile_eq_nil_iff.mpr fun c hc => (h c hc).1
    rw [hall] at hdrop
    cases hdrop
  | nil =>
    have hall := List.dropWhile_eq_nil_iff.mp hdrop
    simp only [ite_eq_right_iff, reduceCtorEq, imp_false, List.any_eq_true, decide_eq_true_eq,
      not_exists, not_and]
    exact ⟨fun h c hc => ⟨hall c hc, h c hc⟩, fun h c hc => (h c hc).2⟩

end Name

end SvgDeck
