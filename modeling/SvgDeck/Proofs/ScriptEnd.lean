/-
Where the script of a page ends.

What a page embeds in its script closes nothing, so the tokenizer can only miss the end tag of the
template, and it does so where it is double escaped.  Which mode it is in at that tag is decided by
the statements of the flows alone: the narration does to the mode what they do one after the other,
and the mapping and the player leave it as it is.

* `script_ends_iff` — the script ends at the template's end tag, unless the statements swallow it.
-/
import SvgDeck.Proofs.ScriptComment
import SvgDeck.Proofs.ScriptTexts
import SvgDeck.Proofs.Verdict

namespace SvgDeck

open Text

namespace ScriptData

section Ends

variable {s : State} {t u : Text}

theorem run_left (t : Text) : run .left t = .left := by
  induction t with
  | nil => rfl
  | cons c t ih => exact ih

/-- What does not end the element is passed over. -/
theorem rest?_append (h : run s t ≠ .left) : rest? s (t ++ u) = rest? (run s t) u := by
  induction t generalizing s with
  | nil => rfl
  | cons c t ih =>
    have hstep : step s c ≠ .left := by
      intro hleft
      refine h ?_
      show run (step s c) t = .left
      rw [hleft, run_left]
    rw [List.cons_append, rest?, if_neg hstep]
    exact ih h

/-- The page behind the end of its script. -/
def pageRest : Text := "\n</body>\n</html>\n"

/-- The end tag of the page's script is one, unless the script is double escaped. -/
theorem rest?_scriptEnd (hs : s.isAtRest = true) : rest? s ("</script>" ++ pageRest) =
    if s.mode = .doubleEscaped then none else some pageRest := by
  have hall : ∀ s ∈ restStates, rest? s ("</script>" ++ pageRest) =
      if s.mode = .doubleEscaped then none else some pageRest := by
    decide +kernel
  refine hall s ?_
  cases s <;> simp_all [State.isAtRest, restStates]

/-- Lines that leave the mode as it is. -/
theorem carries_lines {parts : List Text} (h : ∀ part ∈ parts, Carries step part id) :
    Carries step (lines parts) id := by
  have hfeed : Carries step [CodePoint.ofChar '\n'] id := carries_id_of_forall (by decide)
  have hparts : List.Forall₂ (fun part ts => Carries step part (afterAll ts)) parts
      (parts.map fun _ => []) := by
    rw [List.forall₂_map_right_iff, List.forall₂_same]
    exact h
  have hflatten : (parts.map fun _ => ([] : List Text)).flatten = [] := by simp
  have hjoin := carries_join hfeed hparts
  rw [hflatten] at hjoin
  exact hjoin

/-- A literal is the list of its characters, which is looked through faster. -/
theorem carries_ofString {literal : String} {chars : List Char}
    (hs : literal = String.ofList chars)
    (h : ∀ s ∈ restStates, ((chars.map CodePoint.ofChar).foldl step s).isAtRest = true ∧
      ((chars.map CodePoint.ofChar).foldl step s).mode = s.mode) :
    Carries step (ofString literal) id := by
  have htext : ofString literal = chars.map CodePoint.ofChar := by
    rw [hs, ofString, String.toList_ofList]
  rw [htext]
  exact carries_id_of_forall h

theorem carries_player : Carries step player id := by
  refine carries_lines ?_
  simp only [List.map_cons, List.map_nil, List.forall_mem_cons]
  repeat refine ⟨carries_ofString rfl (by decide +kernel), ?_⟩
  exact List.forall_mem_nil _

end Ends

/-! ### Statements -/

/-- The state of a mode behind a bracket. -/
def Mode.bracket : Mode → State
  | .plain => .lessThan
  | .escaped => .escapedLessThan
  | .doubleEscaped => .doubleEscapedLessThan

theorem safeNext_less {s : State} (hs : s.isOpen = true) (small : CodePoint) :
    safeNext s .less small = s.mode.bracket := by
  cases s <;> simp_all [State.isOpen] <;> rfl

/-- Centring a statement makes no difference. -/
theorem after_centred (t : Text) (m : Mode) :
    after ("<div class=\"centered\">" ++ t ++ "</div>") m = after t m := by
  have hfront : ∀ m : Mode,
      (ofString "<div class=\"centered\">").foldl textStep m.base = m.base := by
    intro m
    cases m <;> decide +kernel
  have hback : ∀ m : Mode, ((ofString "/div>").foldl textStep m.bracket).mode = m := by
    intro m
    cases m <;> decide +kernel
  have hopen := isOpen_foldl_textStep (isOpen_base m) t
  have hbracket : textStep (t.foldl textStep m.base) (CodePoint.ofChar '<') = (after t m).bracket :=
    (textStep_eq hopen).trans (safeNext_less hopen _)
  have htag : ofString "</div>" = CodePoint.ofChar '<' :: ofString "/div>" := rfl
  rw [after, List.foldl_append, List.foldl_append, hfront, htag, List.foldl_cons, hbracket, hback]

theorem after_lines (ts : List Text) (m : Mode) :
    after (ts.flatMap (· ++ "\n")) m = afterAll ts m := by
  induction ts generalizing m with
  | nil => exact after_nil m
  | cons t ts ih =>
    have hcons : (t :: ts).flatMap (· ++ ofString "\n") =
        t ++ CodePoint.ofChar '\n' :: ts.flatMap (· ++ ofString "\n") := by
      rw [List.flatMap_cons, List.append_assoc]
      rfl
    rw [hcons, after_append_cons (by decide), ih]
    rfl

theorem afterAll_shown {numbered : List (Flow × Nat)} (m : Mode) :
    afterAll ((numbered.map fun x => (x.1.qualifiedAt x.2).narrated).map (·.html)) m =
      afterAll (numbered.map (·.1.html)) m := by
  induction numbered generalizing m with
  | nil => rfl
  | cons x numbered ih =>
    have hx : after (x.1.qualifiedAt x.2).narrated.html m = after x.1.html m := by
      rw [(shownAs_narrated x.1 x.2).html]
      split
      · exact after_centred _ _
      · rfl
    show afterAll _ (after _ m) = afterAll _ (after _ m)
    rw [hx]
    exact ih _

end ScriptData

/-- The statements of the flows, line by line. -/
def Document.statements (d : Document) : Text := (d.flows.map (·.html)).flatMap (· ++ "\n")

open ScriptData

section Pages

variable {w : Workspace} {d : Document} {folder : FolderName} {b : Bundle}

/-! ### The page -/

/-- The page up to the tag of its script. -/
def Bundle.beforeScriptTag (b : Bundle) (title : Text) : Text :=
  (skeleton.take 24).flatMap (Piece.render (b.fill title))

/-- What the template puts between the tags of the script. -/
def Bundle.script (b : Bundle) : Text :=
  "\nvar NARRATION = " ++ (scriptSafe b.narration ++ (";\nvar ANIMATIONS = " ++
    (scriptSafe b.mapping ++ (";\n" ++ (player ++ "\n")))))

theorem render_eq_script (b : Bundle) (title : Text) : b.render title =
    b.beforeScriptTag title ++ "<script>" ++ (b.script ++ ("</script>" ++ pageRest)) := by
  have hpieces : skeleton.take 25 = skeleton.take 24 ++ [.fixed "<script>\n"] := rfl
  have htag : ofString "<script>\n" = ofString "<script>" ++ ofString "\n" := rfl
  have hstart : ofString "\nvar NARRATION = " = ofString "\n" ++ ofString "var NARRATION = " := rfl
  have hend : ofString "\n</script>\n</body>\n</html>\n" =
      ofString "\n" ++ (ofString "</script>" ++ pageRest) := rfl
  rw [render_eq_append, Bundle.beforeScript, hpieces, List.flatMap_append, List.flatMap_singleton,
    Piece.render, htag, Bundle.beforeScriptTag, Bundle.fromScript, hend, Bundle.script, hstart]
  simp only [List.append_assoc]

/-- What the narration of a page does to the mode, and what its mapping does. -/
theorem carries_compileDocument (hd : d.IsValid)
    (h : (compileDocument w d folder).outcome = .ok b) :
    Carries step (scriptSafe b.narration) (afterAll (b.document.flows.map (·.html))) ∧
      Carries step (scriptSafe b.mapping) id ∧
      b.document.flows = d.numbered.map fun x => (x.1.qualifiedAt x.2).narrated := by
  have hvalid := isValid_of_compileDocument hd h
  obtain ⟨bodies, entries, _, hanim, rfl⟩ := exists_of_compileDocument h
  have hflows := flows_bundle d (join "\n\n" (List.zipWith wrapBody d.pictures bodies))
    (entries.filterMap id)
  refine ⟨(actsAs_document hvalid fun f hf => ?_).scriptSafe, ?_, hflows⟩
  · refine ⟨hvalid.id f hf, ?_⟩
    rw [hflows] at hf
    obtain ⟨x, _, rfl⟩ := List.mem_map.mp hf
    exact ⟨(shownAs_narrated x.1 x.2).focus, (shownAs_narrated x.1 x.2).highlight⟩
  · exact (actsAs_mapping (fun x hx => hd.id x.1 (List.fst_mem_of_mem_zipIdx hx)) hanim).scriptSafe

/-- The script does to the mode what the statements do. -/
theorem carries_script (hd : d.IsValid) (h : (compileDocument w d folder).outcome = .ok b) :
    Carries step b.script (after d.statements) := by
  obtain ⟨hnarration, hmapping, hflows⟩ := carries_compileDocument hd h
  have hfst : d.numbered.map (·.1.html) = d.flows.map (·.html) := by
    rw [← List.zipIdx_map_fst 1 d.flows, List.map_map]
    rfl
  have hsaid : ∀ m, afterAll (b.document.flows.map (·.html)) m = after d.statements m := fun m => by
    rw [hflows, afterAll_shown, hfst, ← after_lines, ← Document.statements]
  have hstart : Carries step "\nvar NARRATION = " id := carries_id_of_forall (by decide +kernel)
  have hmiddle : Carries step ";\nvar ANIMATIONS = " id := carries_id_of_forall (by decide +kernel)
  have hbehind : Carries step ";\n" id := carries_id_of_forall (by decide +kernel)
  have hend : Carries step "\n" id := carries_id_of_forall (by decide +kernel)
  intro s hs
  obtain ⟨hrest, hmode⟩ := (hstart.append (hnarration.append (hmiddle.append (hmapping.append
    (hbehind.append (carries_player.append hend)))))) s hs
  exact ⟨hrest, hmode.trans (hsaid s.mode)⟩

/-- The script of a page ends where the template ends it, or not at all. -/
theorem rest?_script (hd : d.IsValid) (h : (compileDocument w d folder).outcome = .ok b) :
    rest? .data (b.script ++ ("</script>" ++ pageRest)) =
      if after d.statements .plain = .doubleEscaped then none else some pageRest := by
  obtain ⟨hrest, hmode⟩ := carries_script hd h .data rfl
  rw [rest?_append, run, rest?_scriptEnd hrest, hmode]
  · rfl
  · intro hleft
    rw [run] at hleft
    rw [hleft] at hrest
    cases hrest

/-- **The script of a page ends at its end tag** exactly if no statement opens a comment in which
a script begins and that is not ended; otherwise it never ends. -/
theorem script_ends_iff (hd : d.IsValid) (h : (compileDocument w d folder).outcome = .ok b)
    (title : Text) :
    b.render title =
        b.beforeScriptTag title ++ "<script>" ++ (b.script ++ ("</script>" ++ pageRest)) ∧
      (rest? .data (b.script ++ ("</script>" ++ pageRest)) = some pageRest ↔
        ¬ Swallows d.statements) ∧
      (rest? .data (b.script ++ ("</script>" ++ pageRest)) = none ↔ Swallows d.statements) := by
  rw [rest?_script hd h, ← after_plain_eq_doubleEscaped]
  refine ⟨render_eq_script b title, ?_, ?_⟩
  · split <;> simp_all
  · split <;> simp_all

end Pages

theorem script_ends_iff_talk : talk.IsValid ∧
    ∃ b, (compileDocument talkFolder talk (.ofText "talk")).outcome = .ok b ∧
      ¬ Swallows talk.statements ∧
      rest? .data (b.script ++ ("</script>" ++ pageRest)) = some pageRest := by
  obtain ⟨b, hb⟩ := exists_of_isOk talk_compiles
  have hno : ¬ Swallows talk.statements := by
    rintro ⟨inside, hinside, _⟩
    have hstart : ¬ commentStart <:+: talk.statements := by decide +kernel
    exact hstart (((List.prefix_append _ _).isInfix).trans hinside.behind.isInfix)
  exact ⟨talk_isValid, b, hb, hno, (script_ends_iff talk_isValid hb []).2.1.mpr hno⟩

/-- A talk whose only statement writes about a comment and a script. -/
def swallowingTalk : Document where
  settings := talk.settings
  sections := [⟨[⟨"a", "<!--<script>", .zero false, none, none, none⟩], none⟩]

/-- Its page never ends the script that holds it. -/
theorem swallowingTalk_not_ends : swallowingTalk.IsValid ∧
    ∃ b, (compileDocument talkFolder swallowingTalk (.ofText "talk")).outcome = .ok b ∧
      ∀ title, b.render title =
          b.beforeScriptTag title ++ "<script>" ++ (b.script ++ ("</script>" ++ pageRest)) ∧
        rest? .data (b.script ++ ("</script>" ++ pageRest)) = none := by
  have hvalid : swallowingTalk.IsValid := ⟨⟨by decide, by decide, by decide, by decide⟩, by decide⟩
  have hok : (compileDocument talkFolder swallowingTalk (.ofText "talk")).outcome.isOk = true := by
    decide +kernel
  obtain ⟨b, hb⟩ := exists_of_isOk hok
  have hswallows : after swallowingTalk.statements .plain = .doubleEscaped := by decide +kernel
  refine ⟨hvalid, b, hb, fun title => ⟨render_eq_script b title, ?_⟩⟩
  rw [rest?_script hvalid hb, if_pos hswallows]

end SvgDeck
