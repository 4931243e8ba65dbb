/-
The page.

A page is a fixed skeleton with seven slots.  `render` goes over the skeleton once and
fills each slot, so what is filled in is never looked at again.  The texts for the
script are changed so that they cannot close its element, and only there where a
slash follows an opening angle bracket.
-/
import SvgDeck.Bundle
import SvgDeck.Page.Player
import SvgDeck.Page.Style

namespace SvgDeck

/-- What differs between pages. -/
inductive Slot where
  | title
  | style
  | bodyClasses
  | fragments
  | narration
  | mapping
  | player
deriving DecidableEq

inductive Piece where
  | fixed (t : Text)
  | slot (s : Slot)

/-- The page without its contents. -/
def skeleton : List Piece :=
  [.fixed "<!DOCTYPE html>\n",
    .fixed "<html lang=\"en\">\n",
    .fixed "<head>\n",
    .fixed "<meta charset=\"utf-8\">\n",
    .fixed "<meta name=\"viewport\" content=\"width=device-width, initial-scale=1\">\n",
    .fixed "<title>",
    .slot .title,
    .fixed "</title>\n",
    .fixed "<style>\n",
    .slot .style,
    .fixed "\n",
    .fixed "</style>\n",
    .fixed "</head>\n",
    .fixed "<body class=\"",
    .slot .bodyClasses,
    .fixed "\">\n",
    .fixed "<div class=\"rotate-notice\">Please rotate your device to landscape.</div>\n",
    .fixed "<main>\n",
    .fixed "<div id=\"svg-pane\">\n",
    .slot .fragments,
    .fixed "\n",
    .fixed "</div>\n",
    .fixed "<div id=\"text-pane\"></div>\n",
    .fixed "</main>\n",
    .fixed "<script>\n",
    .fixed "var NARRATION = ",
    .slot .narration,
    .fixed ";\n",
    .fixed "var ANIMATIONS = ",
    .slot .mapping,
    .fixed ";\n",
    .slot .player,
    .fixed "\n",
    .fixed "</script>\n",
    .fixed "</body>\n",
    .fixed "</html>\n"]

/-- The text with a backslash before each slash that follows an opening angle bracket. -/
def scriptSafe : Text → Text
  | [] => []
  | c :: t =>
    if c = '<' ∧ t.head? = some (CodePoint.ofChar '/') then c :: '\\' :: scriptSafe t
    else c :: scriptSafe t

/-- What a slot is filled with. -/
def Bundle.fill (b : Bundle) (title : Text) : Slot → Text
  | .title => title.escapeMarkup
  | .style => b.document.settings.style
  | .bodyClasses => b.document.settings.bodyClasses
  | .fragments => b.fragments
  | .narration => scriptSafe b.narration
  | .mapping => scriptSafe b.mapping
  | .player => player

def Piece.render (fill : Slot → Text) : Piece → Text
  | .fixed t => t
  | .slot s => fill s

/-- The page of a compiled slideshow. -/
def Bundle.render (b : Bundle) (title : Text) : Text := skeleton.flatMap (Piece.render (b.fill title))

end SvgDeck
