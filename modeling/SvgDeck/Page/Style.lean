/-
The style of a page.

The settings of a document become custom properties, which the style sheet refers to.
A setting that is unset or empty has a plain value instead.
-/
import SvgDeck.Document

namespace SvgDeck

/-- A setting, or the plain value if it is unset or empty. -/
def settingOr (plain : Text) : Option Text → Text
  | some (c :: t) => c :: t
  | _ => plain

/-- What holds of the setting and of the plain value holds of what is taken. -/
theorem settingOr_of {P : Text → Prop} {plain : Text} {o : Option Text} (hplain : P plain)
    (h : ∀ t, o = some t → P t) : P (settingOr plain o) := by
  rcases o with _ | _ | ⟨c, t⟩
  · exact hplain
  · exact hplain
  · exact h _ rfl

theorem settingOr_eq_getD {plain : Text} {o : Option Text} (h : ∀ t, o = some t → t ≠ []) :
    settingOr plain o = o.getD plain := by
  rcases o with _ | _ | ⟨c, t⟩
  · rfl
  · exact absurd rfl (h [] rfl)
  · rfl

/-- The custom properties that a document's settings give, by name. -/
def Settings.properties (s : Settings) : List (Text × Text) :=
  [("--min-font-size", s.minSize),
    ("--max-font-size", s.maxSize),
    ("--svg-pane-bg", settingOr "#ffffff" s.svgPaneBackground),
    ("--text-pane-bg", settingOr "#ffffff" s.textPaneBackground),
    ("--top-border", settingOr "none" s.topBorder),
    ("--bottom-border", settingOr "none" s.bottomBorder),
    ("--left-border", settingOr "none" s.leftBorder),
    ("--right-border", settingOr "none" s.rightBorder)]

/-- The rule that defines the custom properties. -/
def Settings.styleRule (s : Settings) : Text :=
  let declarations := s.properties.map fun (name, value) => "  " ++ name ++ ": " ++ value ++ ";"
  ":root \x7b\n" ++ Text.lines declarations ++ "\n\x7d"

/-- The classes of the page's body. -/
def Settings.bodyClasses (s : Settings) : Text :=
  Text.join " " <|
    (if s.flipPanes = some true then [Text.ofString "flipped"] else []) ++
      (if s.landscapeOnly = some true then [Text.ofString "landscape-only"] else [])

/-- The style sheet that all pages share. -/
def styleSheet : Text :=
  Text.ofLines
   ["* \x7b box-sizing: border-box; \x7d",
    "html, body \x7b margin: 0; height: 100%; overflow: hidden; font-family: sans-serif; \x7d",
    "main \x7b",
    "  display: flex; flex-direction: row; height: 100%;",
    "  border-top: var(--top-border); border-bottom: var(--bottom-border);",
    "  border-left: var(--left-border); border-right: var(--right-border);",
    "\x7d",
    "body.flipped main \x7b flex-direction: row-reverse; \x7d",
    "#svg-pane \x7b flex: 1 1 50%; position: relative; background: var(--svg-pane-bg); \x7d",
    "#text-pane \x7b flex: 1 1 50%; overflow-y: auto; padding: 1em; background: var(--text-pane-bg); \x7d",
    ".flow-svg \x7b display: none; position: absolute; inset: 0; \x7d",
    ".flow-svg.active \x7b display: block; \x7d",
    ".flow-svg > svg \x7b width: 100%; height: 100%; \x7d",
    ".flow \x7b font-size: var(--min-font-size); opacity: 0.5; cursor: pointer; margin: 0.5em 0; \x7d",
    ".flow.active \x7b font-size: var(--max-font-size); opacity: 1; \x7d",
    ".centered \x7b text-align: center; \x7d",
    ".rotate-notice \x7b display: none; \x7d",
    "@media (orientation: portrait) \x7b",
    "  main \x7b flex-direction: column; \x7d",
    "  body.flipped main \x7b flex-direction: column-reverse; \x7d",
    "  body.landscape-only main \x7b display: none; \x7d",
    "  body.landscape-only .rotate-notice \x7b",
    "    display: flex; height: 100%; align-items: center; justify-content: center;",
    "  \x7d",
    "\x7d"]

/-- The whole style of a page. -/
def Settings.style (s : Settings) : Text := s.styleRule ++ "\n\n" ++ styleSheet

end SvgDeck
