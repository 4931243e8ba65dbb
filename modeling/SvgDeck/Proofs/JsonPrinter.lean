/-
JSON in print is read back.

`Rereads` says of a value that it is read from its print, whatever follows if that is no part of a
number.  Words and numbers are read in one step (`rereads_of_readAtom`), texts from their escapes
(`rereads_text`), items and members one by one (`rereads_array`, `rereads_object`).  So

* `rereads` — every value is read back from its print;
* `read?_print` — and from a text that holds nothing else.
-/
import SvgDeck.Json.Printer
import SvgDeck.Proofs.JsonNumber
import SvgDeck.Proofs.JsonReader

namespace SvgDeck.Json

open Binary64 (Starts signText)

/-! ### Texts -/

section Texts

variable {c : CodePoint} {t : Text}

/-- Four digits are read as the control that they number. -/
theorem hexCode?_hex_append (hc : c.val < 0x20) :
    hexCode? (Text.hex 4 c.val ++ t) = some (c, t) := by
  have hdigits : ∀ n < 0x20, (Text.hex 4 n).length = 4 ∧ hexValue? (Text.hex 4 n) = some n := by
    decide
  obtain ⟨hlength, hvalue⟩ := hdigits c.val hc
  obtain ⟨h₁, h₂, h₃, h₄, hfour⟩ := List.length_eq_four.mp hlength
  rw [hfour] at hvalue ⊢
  simp only [List.cons_append, List.nil_append, hexCode?, hvalue, Option.bind_some,
    CodePoint.ofNat?, dif_pos c.isLt, Option.map_some]

/-- Escaped code points are read back. -/
theorem readText_escape_append (c : CodePoint) (t : Text) :
    readText none (escape c ++ t) = prepend [c] (readText none t) := by
  have hletter : ∀ {e x : CodePoint} {t : Text}, e ≠ CodePoint.ofChar 'u' → unescape? e = some x →
      readText none ('\\' :: e :: t : Text) = prepend [x] (readText none t) := by
    intro e x t he hx
    rw [readText_backslash]
    simp only [if_neg he, hx, Option.bind_some]
    rfl
  rw [escape]
  split_ifs with hquote hbackslash hline hreturn htab hback hfeed hcontrol
  · exact hletter (by decide) (by rw [hquote]; decide)
  · exact hletter (by decide) (by rw [hbackslash]; decide)
  · exact hletter (by decide) (by rw [hline]; decide)
  · exact hletter (by decide) (by rw [hreturn]; decide)
  · exact hletter (by decide) (by rw [htab]; decide)
  · exact hletter (by decide) (by rw [show c = ⟨0x08, by decide⟩ from CodePoint.ext hback]; decide)
  · exact hletter (by decide) (by rw [show c = ⟨0x0C, by decide⟩ from CodePoint.ext hfeed]; decide)
  · -- A control without a letter is numbered, and is no surrogate.
    have hhigh : isHighSurrogate c.val = false := by
      rw [isHighSurrogate, Bool.and_eq_false_iff, decide_eq_false_iff_not]
      exact Or.inl (by omega)
    show readText none ('\\' :: 'u' :: (Text.hex 4 c.val ++ t) : Text) = _
    rw [readText_backslash]
    simp only [if_pos, hexCode?_hex_append hcontrol, Option.bind_some, addCode, hhigh,
      Bool.false_eq_true, if_false]
  · exact readText_plain hquote hcontrol hbackslash

/-- A text is read back from its print. -/
theorem readText_flatMap_escape (s rest : Text) :
    readText none (s.flatMap escape ++ CodePoint.ofChar '"' :: rest) = some (s, rest) := by
  induction s with
  | nil => exact readText_quote
  | cons c s ih =>
    rw [List.flatMap_cons, List.append_assoc, readText_escape_append, ih]
    rfl

end Texts

/-! ### Values -/

section Rereads

variable {n m : Nat} {t rest : Text} {v : Json} {items : List Json} {members : List (Text × Json)}

/-- The print of a value is read back, whatever follows if it is no part of a number. -/
def Rereads (v : Json) : Prop :=
  ∀ rest : Text, (∀ c ∈ rest.head?, isNumberPart c = false) →
    ∃ n, readValue n (v.print ++ rest) = some (v, rest)

theorem skipSpaces_of_not {c : CodePoint} (h : isSpace c = false) (t : Text) :
    skipSpaces (c :: t) = c :: t := by
  rw [skipSpaces, List.dropWhile_cons_of_neg (by simp [h])]

theorem rereads_text (t : Text) : Rereads (.text t) := by
  intro rest _
  have hprint : (Json.text t).print ++ rest =
      CodePoint.ofChar '"' :: (t.flatMap escape ++ CodePoint.ofChar '"' :: rest) := by
    simp [print, printText, Text.ofString]
  refine ⟨1, readValue_succ_eq_some.mpr (.text ?_ (readText_flatMap_escape t rest))⟩
  rw [hprint, skipSpaces_of_not (by decide)]

/-! ### Words and numbers -/

/-- With this an atom begins: no blank, no quote and no bracket. -/
def StartsAtom (c : CodePoint) : Prop :=
  isSpace c = false ∧ ∀ d ∈ Text.ofString "\"[]\x7b", c ≠ d

instance (c : CodePoint) : Decidable (StartsAtom c) := by
  unfold StartsAtom
  infer_instance

theorem rereads_of_readAtom (hstart : ∃ c u, v.print = c :: u ∧ StartsAtom c)
    (hatom : ∀ rest : Text, (∀ c ∈ rest.head?, isNumberPart c = false) →
      readAtom (v.print ++ rest) = some (v, rest)) : Rereads v := by
  obtain ⟨c, u, hprint, hspace, hmarks⟩ := hstart
  intro rest hrest
  have hread := hatom rest hrest
  rw [hprint, List.cons_append] at hread
  refine ⟨1, readValue_succ_eq_some.mpr (.atom (c := c) (s := u ++ rest) ?_ ?_ ?_ ?_ hread)⟩
  · rw [hprint, List.cons_append, skipSpaces_of_not hspace]
  · exact hmarks _ (by decide)
  · exact hmarks _ (by decide)
  · exact hmarks _ (by decide)

/-- A word is read, and no other word stands in its place. -/
theorem readAtom_word : ∀ w ∈ words, ∀ rest, readAtom (w.1 ++ rest) = some (w.2, rest) := by
  simp only [words, List.forall_mem_cons]
  exact ⟨fun _ => rfl, fun _ => rfl, fun _ => rfl, fun _ => rfl, fun _ => rfl, fun _ => rfl,
    List.forall_mem_nil _⟩

theorem rereads_of_mem_words (word : Text) (hmem : (word, v) ∈ words) (hprint : v.print = word) :
    Rereads v := by
  have hstart : ∀ w ∈ words, ∃ c ∈ w.1.head?, StartsAtom c := by decide
  obtain ⟨c, hc, hatom⟩ := hstart _ hmem
  obtain ⟨u, hu⟩ := List.head?_eq_some_iff.mp hc
  refine rereads_of_readAtom ⟨c, u, hprint.trans hu, hatom⟩ fun rest _ => ?_
  rw [hprint]
  exact readAtom_word _ hmem rest

theorem startsAtom_of_isAsciiDigit {c : CodePoint} (hc : c.isAsciiDigit = true) : StartsAtom c := by
  have hne : ∀ d : CodePoint, d.isAsciiDigit = false → c ≠ d := by
    rintro d hd rfl
    rw [hc] at hd
    cases hd
  have hspaces : ∀ d ∈ Text.ofString " \n\r\t", d.isAsciiDigit = false := by decide
  have hmarks : ∀ d ∈ Text.ofString "\"[]\x7b", d.isAsciiDigit = false := by decide
  refine ⟨?_, fun d hd => hne d (hmarks d hd)⟩
  simp only [isSpace, Bool.or_eq_false_iff, decide_eq_false_iff_not]
  exact ⟨⟨⟨hne _ (hspaces _ (by decide)), hne _ (hspaces _ (by decide))⟩,
    hne _ (hspaces _ (by decide))⟩, hne _ (hspaces _ (by decide))⟩

/-- No word begins like a number. -/
theorem after?_word_eq_none (negative : Bool) (ht : Starts t) :
    ∀ w ∈ words, Text.after? w.1 (signText negative ++ t) = none := by
  have hletters : ∀ w ∈ words, 2 ≤ w.1.length ∧ ∀ c ∈ w.1.take 2, c.isAsciiDigit = false := by
    decide
  obtain ⟨c, u, rfl, hc⟩ := ht
  have hne : ∀ d : CodePoint, d.isAsciiDigit = false → d ≠ c := by
    rintro d hd rfl
    rw [hc] at hd
    cases hd
  rintro ⟨word, value⟩ hw
  obtain ⟨hlong, hdigit⟩ := hletters _ hw
  rcases word with _ | ⟨a, _ | ⟨b, word⟩⟩
  · cases hlong
  · simp at hlong
  · cases negative with
    | false => exact if_neg (hne a (hdigit a (by simp)))
    | true =>
      show (if a = CodePoint.ofChar '-' then if b = c then _ else none else none) = none
      rw [if_neg (hne b (hdigit b (by simp))), ite_self]

/-- Behind its sign a number begins with a digit, and only its own parts are taken. -/
theorem rereads_of_number {negative : Bool} {body : Text}
    (hprint : v.print = signText negative ++ body) (hbody : Starts body)
    (hparts : ∀ c ∈ body, isNumberPart c = true)
    (hnumber : number? (signText negative ++ body) = some v) : Rereads v := by
  have hall : ∀ c ∈ v.print, isNumberPart c = true := by
    rw [hprint]
    refine List.forall_mem_append.mpr ⟨?_, hparts⟩
    cases negative <;> decide
  have hstart : ∃ c u, v.print = c :: u ∧ StartsAtom c := by
    obtain ⟨c, u, rfl, hc⟩ := hbody
    cases negative with
    | false => exact ⟨c, u, hprint, startsAtom_of_isAsciiDigit hc⟩
    | true => exact ⟨CodePoint.ofChar '-', c :: u, hprint, by decide⟩
  refine rereads_of_readAtom hstart fun rest hrest => ?_
  have hword : (words.findSome? fun w =>
      (Text.after? w.1 (v.print ++ rest)).map (w.2, ·)) = none := by
    refine List.findSome?_eq_none_iff.mpr fun w hw => ?_
    rw [hprint, List.append_assoc]
    exact Option.map_eq_none_iff.mpr (after?_word_eq_none negative (hbody.append rest) w hw)
  obtain ⟨htake, hdrop⟩ := Text.takeWhile_append hall hrest
  obtain ⟨c, u, hcons, _⟩ := hstart
  rw [readAtom, hword]
  simp only
  rw [htake, hdrop, if_neg (by simp [hcons]), hprint, hnumber]
  rfl

theorem isNumberPart_of_isAsciiDigit {c : CodePoint} (h : c.isAsciiDigit = true) :
    isNumberPart c = true := by
  simp [isNumberPart, h]

theorem rereads_int (n : Int) : Rereads (.int n) := by
  have hascii := Text.isAscii_ofNat n.natAbs
  have hne := Text.ofNat_ne_nil n.natAbs
  have hstarts := Binary64.starts_of_isAscii hascii hne
  have hprint : (Json.int n).print = signText (decide (n < 0)) ++ Text.ofNat n.natAbs := by
    rw [print, ofInt_eq]
  refine rereads_of_number hprint hstarts
    (fun c hc => isNumberPart_of_isAsciiDigit (hascii c hc)) ?_
  have hform : isNumber (signText (decide (n < 0)) ++ Text.ofNat n.natAbs) = true := by
    rw [isNumber_iff, ← ofInt_eq]
    exact isNumber_ofInt n
  rw [number?, if_pos hform, Binary64.splitSign_signText _ hstarts]
  simp only [Binary64.natOfDigits?_of_isAscii hascii hne, Text.digitsValue_ofNat, decide_eq_true_eq,
    Option.some.injEq, Json.int.injEq]
  split <;> omega

theorem rereads_float (x : Binary64) : Rereads (.float x) := by
  cases x with
  | nan => exact rereads_of_mem_words "NaN" (by simp [words]) rfl
  | infinite negative =>
    cases negative with
    | false => exact rereads_of_mem_words "Infinity" (by simp [words]) rfl
    | true => exact rereads_of_mem_words "-Infinity" (by simp [words]) rfl
  | finite negative m e h =>
    obtain ⟨body, htext, hbody⟩ := Binary64.exists_text_finite negative h
    have hmarks : ∀ c ∈ Text.ofString ".e+-", isNumberPart c = true := by decide
    refine rereads_of_number htext hbody.starts (fun c hc => ?_) ?_
    · rcases hbody.parts c hc with hdigit | hmark
      · exact isNumberPart_of_isAsciiDigit hdigit
      · exact hmarks c hmark
    · -- A point or an exponent tells it from a whole number.
      have hwhole : Text.natOfDigits? body = none := by
        obtain ⟨c, hc, hdigit⟩ := hbody.marked
        refine if_neg fun hall => ?_
        rw [List.all_eq_true.mp hall.2 c hc] at hdigit
        cases hdigit
      have hform : isNumber (signText negative ++ body) = true := by
        rw [isNumber_iff, ← htext]
        exact isNumber_text rfl
      rw [number?, if_pos hform, Binary64.splitSign_signText _ hbody.starts]
      simp only [hwhole]
      rw [← htext, Binary64.ofText?_text]
      rfl

/-! ### Items and members -/

theorem skipSpaces_blank (t : Text) : skipSpaces (CodePoint.ofChar ' ' :: t) = skipSpaces t :=
  List.dropWhile_cons_of_pos (by decide)

theorem skipSpaces_skipSpaces (t : Text) : skipSpaces (skipSpaces t) = skipSpaces t :=
  List.dropWhile_idempotent isSpace t

/-- Blanks in front have no part in what is read. -/
theorem readValue_congr {s : Text} (h : skipSpaces s = skipSpaces t) (n : Nat) :
    readValue n s = readValue n t := by
  cases n with
  | zero => rw [readValue.eq_1, readValue.eq_1]
  | succ n => rw [readValue, readValue, h]

theorem readItems_congr {s : Text} (h : skipSpaces s = skipSpaces t) (n : Nat) :
    readItems n s = readItems n t := by
  cases n with
  | zero => rw [readItems.eq_1, readItems.eq_1]
  | succ n => rw [readItems, readItems, readValue_congr h]

theorem readMembers_congr {s : Text} (h : skipSpaces s = skipSpaces t) (n : Nat) :
    readMembers n s = readMembers n t := by
  cases n with
  | zero => rw [readMembers.eq_1, readMembers.eq_1]
  | succ n => rw [readMembers, readMembers, readMembers.readKey, readMembers.readKey, h]

/-- With enough fuel an element in print is read, and then what is read behind it. -/
def RereadsElement {α : Type} (close : CodePoint) (read : Nat → Text → Option (List α × Text))
    (print : α → Text) (a : α) : Prop :=
  ∀ after : Text, (∀ c ∈ after.head?, isNumberPart c = false) →
    ∃ n, ∀ m, n ≤ m → ∀ as rest, readBehind close a (read m) after = some (as, rest) →
      read (m + 1) (print a ++ after) = some (as, rest)

/-- What readers of items and of members have in common. -/
structure IsElementReader {α : Type} (close : CodePoint)
    (read : Nat → Text → Option (List α × Text)) : Prop where
  close_mem : close ∈ Text.ofString "]\x7d"
  takes : ∀ n, Takes read n
  congr : ∀ {s t : Text}, skipSpaces s = skipSpaces t → ∀ n, read n s = read n t
  ne_close : ∀ {n : Nat} {t : Text} {r : List α × Text}, read n t = some r →
    ∃ c s, skipSpaces t = c :: s ∧ c ≠ close

section Elements

variable {α : Type} {close : CodePoint} {read : Nat → Text → Option (List α × Text)}
  {print : α → Text} {as : List α}

/-- Elements in print are read back, up to the bracket. -/
theorem IsElementReader.exists_read_join (hread : IsElementReader close read) (hne : as ≠ [])
    (h : ∀ a ∈ as, RereadsElement close read print a) (rest : Text) :
    ∃ n, read n (Text.join ", " (as.map print) ++ close :: rest) = some (as, rest) := by
  have hmarks : ∀ c ∈ Text.ofString "]\x7d", c ≠ CodePoint.ofChar ',' ∧ isSpace c = false ∧
      isNumberPart c = false := by decide
  obtain ⟨hcomma, hspace, hnumber⟩ := hmarks close hread.close_mem
  induction as with
  | nil => exact absurd rfl hne
  | cons a as ih =>
    obtain ⟨ha, has⟩ := List.forall_mem_cons.mp h
    cases as with
    | nil =>
      obtain ⟨n, hn⟩ := ha (close :: rest) (by simpa using hnumber)
      refine ⟨n + 1, ?_⟩
      rw [List.map_singleton, Text.join, List.intercalate_singleton]
      exact hn n (Nat.le_refl n) _ _
        ((readBehind_eq_some hcomma).mpr (Or.inl ⟨rfl, skipSpaces_of_not hspace rest⟩))
    | cons next as =>
      -- The element is followed by a comma, a blank and the other elements.
      obtain ⟨m, hm⟩ := ih (List.cons_ne_nil _ _) has
      have hparts : Text.join ", " ((a :: next :: as).map print) ++ close :: rest =
          print a ++ CodePoint.ofChar ',' :: CodePoint.ofChar ' ' ::
            (Text.join ", " ((next :: as).map print) ++ close :: rest) := by
        simp [Text.join, Text.ofString]
      rw [hparts]
      generalize Text.join ", " ((next :: as).map print) ++ close :: rest = tail at hm
      obtain ⟨n, hn⟩ := ha (CodePoint.ofChar ',' :: CodePoint.ofChar ' ' :: tail)
        (by simpa using by decide)
      have hmore : read (max n tail.length) (CodePoint.ofChar ' ' :: tail) =
          some (next :: as, rest) := by
        rw [hread.congr (skipSpaces_blank tail)]
        exact (hread.takes m _ _ _ hm).2 _ (by omega)
      refine ⟨_, hn _ (Nat.le_max_left n tail.length) _ _ ((readBehind_eq_some hcomma).mpr ?_)⟩
      exact Or.inr ⟨_, _, skipSpaces_of_not (by decide) _, hmore, rfl⟩

/-- What stands in brackets is read back, be it nothing or something. -/
theorem IsElementReader.exists_readInside (hread : IsElementReader close read)
    (h : ∀ a ∈ as, RereadsElement close read print a) (rest : Text) :
    ∃ n, readInside close (read n) (Text.join ", " (as.map print) ++ close :: rest) =
      some (as, rest) := by
  rcases eq_or_ne as [] with rfl | hne
  · have hmarks : ∀ c ∈ Text.ofString "]\x7d", isSpace c = false := by decide
    exact ⟨0, readInside_eq_some.mpr
      (Or.inl ⟨rfl, skipSpaces_of_not (hmarks close hread.close_mem) rest⟩)⟩
  · obtain ⟨n, hn⟩ := hread.exists_read_join hne h rest
    obtain ⟨c, s, hstart, hc⟩ := hread.ne_close hn
    refine ⟨n, readInside_eq_some.mpr (Or.inr ⟨c, s, hstart, hc, ?_⟩)⟩
    rw [← hn, ← hstart]
    exact hread.congr (skipSpaces_skipSpaces _) n

end Elements

/-- With more fuel the same is read. -/
theorem exists_readValue_of_rereads (h : Rereads v) {after : Text}
    (hafter : ∀ c ∈ after.head?, isNumberPart c = false) :
    ∃ n, ∀ m, n ≤ m → readValue m (v.print ++ after) = some (v, after) := by
  obtain ⟨n, hn⟩ := h after hafter
  exact ⟨_, fun m hm => ((takes n).1 _ _ _ hn).2 m (hm.trans (Nat.le_add_right _ _))⟩

/-- Where a value is read, an array does not end. -/
theorem ne_close_of_readValue (h : readValue n t = some (v, rest)) :
    ∃ c s, skipSpaces t = c :: s ∧ c ≠ CodePoint.ofChar ']' := by
  cases n with
  | zero => cases (readValue.eq_1 t).symm.trans h
  | succ n =>
    cases readValue_succ_eq_some.mp h with
    | text start | array start | object start => exact ⟨_, _, start, by decide⟩
    | @atom c s _ _ start quote bracket brace h =>
      refine ⟨c, s, start, ?_⟩
      rintro rfl
      cases h

theorem isElementReader_readItems : IsElementReader ']' readItems where
  close_mem := by decide
  takes n := (takes n).2.1
  congr := readItems_congr
  ne_close := by
    rintro n t ⟨items, rest⟩ h
    cases n with
    | zero => cases (readItems.eq_1 t).symm.trans h
    | succ n =>
      obtain ⟨item, s, hitem, _⟩ := readItems_succ_eq_some.mp h
      exact ne_close_of_readValue hitem

theorem rereadsElement_item (h : Rereads v) : RereadsElement ']' readItems print v := by
  intro after hafter
  obtain ⟨n, hn⟩ := exists_readValue_of_rereads h hafter
  exact ⟨n, fun m hm items rest hbehind =>
    readItems_succ_eq_some.mpr ⟨v, after, hn m hm, hbehind⟩⟩

theorem isElementReader_readMembers : IsElementReader '\x7d' readMembers where
  close_mem := by decide
  takes n := (takes n).2.2
  congr := readMembers_congr
  ne_close := by
    rintro n t ⟨members, rest⟩ h
    cases n with
    | zero => cases (readMembers.eq_1 t).symm.trans h
    | succ n =>
      obtain ⟨key, k, value, s, hkey, _⟩ := readMembers_succ_eq_some.mp h
      rw [readMembers.readKey] at hkey
      split at hkey
      · cases hkey
      · next c u hstart =>
        split_ifs at hkey with hquote
        exact ⟨c, u, hstart, by rw [hquote]; decide⟩

/-- A key is read from its print, up to the colon. -/
theorem readKey_printText (key rest : Text) :
    readMembers.readKey (printText key ++ ": " ++ rest) =
      some (key, CodePoint.ofChar ' ' :: rest) := by
  have hprint : printText key ++ ": " ++ rest = CodePoint.ofChar '"' :: (key.flatMap escape ++
      CodePoint.ofChar '"' :: CodePoint.ofChar ':' :: CodePoint.ofChar ' ' :: rest) := by
    simp [printText, Text.ofString]
  rw [readMembers.readKey, hprint, skipSpaces_of_not (by decide)]
  simp only [if_pos, readText_flatMap_escape, Option.bind_eq_bind, Option.bind_some,
    skipSpaces_of_not (show isSpace ':' = false by decide)]

theorem rereadsElement_member {member : Text × Json} (h : Rereads member.2) :
    RereadsElement '\x7d' readMembers (fun m => printText m.1 ++ ": " ++ m.2.print) member := by
  intro after hafter
  obtain ⟨n, hn⟩ := exists_readValue_of_rereads h hafter
  refine ⟨n, fun m hm members rest hbehind => readMembers_succ_eq_some.mpr
    ⟨member.1, CodePoint.ofChar ' ' :: (member.2.print ++ after), member.2, after, ?_, ?_, hbehind⟩⟩
  · rw [List.append_assoc, readKey_printText]
  · rw [readValue_congr (skipSpaces_blank _), hn m hm]

theorem skipSpaces_bracketed {left right : CodePoint} (hleft : isSpace left = false)
    (parts : List Text) (rest : Text) :
    skipSpaces (bracketed left right parts ++ rest) =
      left :: (Text.join ", " parts ++ right :: rest) := by
  rw [bracketed, List.append_assoc, List.append_assoc, List.singleton_append,
    List.singleton_append, skipSpaces_of_not hleft]

/-- An array is read back if its items are. -/
theorem rereads_array (h : ∀ item ∈ items, Rereads item) : Rereads (.array items) := by
  intro rest _
  obtain ⟨n, hn⟩ := isElementReader_readItems.exists_readInside
    (fun item hitem => rereadsElement_item (h item hitem)) rest
  rw [← printItems_eq_map] at hn
  refine ⟨n + 1, readValue_succ_eq_some.mpr (.array ?_ hn)⟩
  rw [print, skipSpaces_bracketed (by decide)]

/-- An object is read back if the values of its members are. -/
theorem rereads_object (h : ∀ member ∈ members, Rereads member.2) : Rereads (.object members) := by
  intro rest _
  obtain ⟨n, hn⟩ := isElementReader_readMembers.exists_readInside
    (fun member hmember => rereadsElement_member (h member hmember)) rest
  rw [← printMembers_eq_map] at hn
  refine ⟨n + 1, readValue_succ_eq_some.mpr (.object ?_ hn)⟩
  rw [print, skipSpaces_bracketed (by decide)]

end Rereads

/-! ### All values -/

theorem rereads_of_isAtom (h : v.isAtom = true) : Rereads v := by
  cases v with
  | null => exact rereads_of_mem_words "null" (by simp [words]) rfl
  | bool b =>
    cases b with
    | true => exact rereads_of_mem_words "true" (by simp [words]) rfl
    | false => exact rereads_of_mem_words "false" (by simp [words]) rfl
  | int n => exact rereads_int n
  | float x => exact rereads_float x
  | text t => exact rereads_text t
  | array items => cases h
  | object members => cases h

/-- **Every value is read back from its print.** -/
theorem rereads (v : Json) : Rereads v := by
  induction v using induction_on with
  | atom v h => exact rereads_of_isAtom h
  | array items ih => exact rereads_array ih
  | object members ih => exact rereads_object ih

/-- **A value is read from a text that is its print.** -/
theorem read?_print (v : Json) : read? v.print = some v := by
  obtain ⟨n, hn⟩ := rereads v [] (by simp)
  rw [List.append_nil] at hn
  exact read?_eq_some.mpr ⟨n, [], hn, rfl⟩

end SvgDeck.Json
