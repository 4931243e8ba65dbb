/-
The template of a page.

The template is one text in which names between double braces stand for what a page is filled
with.  `substitute` goes over it once, from left to right: it copies what is no placeholder, puts in
the value of each name it meets, and goes on behind the placeholder.
-/
import SvgDeck.Page.Skeleton

namespace SvgDeck

/-- The page with its placeholders. -/
def template : Text :=
  Text.ofLines
   ["<!DOCTYPE html>",
    "<html lang=\"en\">",
    "<head>",
    "<meta charset=\"utf-8\">",
    "<meta name=\"viewport\" content=\"width=device-width, initial-scale=1\">",
    "<title>\x7b\x7btitle\x7d\x7d</title>",
    "<style>",
    "\x7b\x7bstyle\x7d\x7d",
    "</style>",
    "</head>",
    "<body class=\"\x7b\x7bbody_class\x7d\x7d\">",
    "<div class=\"rotate-notice\">Please rotate your device to landscape.</div>",
    "<main>",
    "<div id=\"svg-pane\">",
    "\x7b\x7bfragments\x7d\x7d",
    "</div>",
    "<div id=\"text-pane\"></div>",
    "</main>",
    "<script>",
    "var NARRATION = \x7b\x7bnarration\x7d\x7d;",
    "var ANIMATIONS = \x7b\x7bmapping\x7d\x7d;",
    "\x7b\x7bplayer\x7d\x7d",
    "</script>",
    "</body>",
    "</html>",
    ""]

/-- What the names in the template stand for. -/
def Bundle.values (b : Bundle) (title : Text) : List (Text × Text) :=
  [("title", title.escapeMarkup),
    ("style", b.document.settings.style),
    ("body_class", b.document.settings.bodyClasses),
    ("fragments", b.fragments),
    ("narration", scriptSafe b.narration),
    ("mapping", scriptSafe b.mapping),
    ("player", player)]

/-! ### Placeholders -/

def placeholderStart : Text := "\x7b\x7b"

def placeholderEnd : Text := "\x7d\x7d"

section Substitution

-- What names are made of.
variable (isWord : CodePoint → Bool)

/-- The name in the placeholder that a text begins with, and what stands behind it. -/
def placeholder? (t : Text) : Option (Text × Text) :=
  (Text.after? placeholderStart t).bind fun rest =>
    if rest.takeWhile isWord = [] then none
    else (Text.after? placeholderEnd (rest.dropWhile isWord)).map (rest.takeWhile isWord, ·)

theorem length_of_placeholder? {t name rest : Text}
    (h : placeholder? isWord t = some (name, rest)) : rest.length < t.length := by
  obtain ⟨inside, hstart, h⟩ := Option.bind_eq_some_iff.1 h
  split at h
  · cases h
  · obtain ⟨rest', hend, he⟩ := Option.map_eq_some_iff.1 h
    cases he
    have hs := congrArg List.length (Text.append_of_after? hstart)
    have he := congrArg List.length (Text.append_of_after? hend)
    have hd := (List.dropWhile_suffix isWord (l := inside)).length_le
    have hpos : 0 < placeholderEnd.length := by decide
    simp only [List.length_append] at hs he
    omega

/-- The text with its placeholders replaced by the values of their names, or the first name that
has no value. -/
def substitute (values : List (Text × Text)) : Text → Except Text Text
  | [] => .ok []
  | c :: t =>
    match _h : placeholder? isWord (c :: t) with
    | some (name, rest) =>
      match values.lookup name with
      | some value => (substitute values rest).map (value ++ ·)
      | none => .error name
    | none => (substitute values t).map (c :: ·)
termination_by t => t.length
decreasing_by
  · exact length_of_placeholder? isWord _h
  · simp

end Substitution

end SvgDeck
