/-
Directives compiled to animations.

`Flow.animation` compiles the directives of one flow and `compileAnimations` those of
a list of flows, which must have different ids.  The result maps the id of each flow
that has a directive to its animation, in the order of the flows.
-/
import SvgDeck.Directive.Focus
import SvgDeck.Directive.Highlight
import SvgDeck.Outline
import SvgDeck.Run

namespace SvgDeck

/-- The markup for a flow's directives. -/
structure Animation where
  focus : Option Text
  highlight : Option Text
deriving DecidableEq

/-- Animations by the id of the flow. -/
abbrev Animations := List (Text × Animation)

def Animation.payload (a : Animation) : Json :=
  .object (optionalMember "focus" .text a.focus ++ optionalMember "highlight" .text a.highlight)

def Animations.payload (as : Animations) : Json :=
  .object (as.map fun (id, a) => (id, a.payload))

/-- The animations as the page's script reads them. -/
def Animations.mapping (as : Animations) : Text := as.payload.print

/-! ### One directive -/

/-- How the lack of a duration ends a run. -/
def durationFailure (timing : Directive.Timing) : Failure :=
  if timing.isTooWide then .precision else .overflow

/-- The duration of a flow's directive, which must not be negative. -/
def checkDuration (kind : DirectiveKind) (flow : Text) (timing : Directive.Timing) :
    Except Failure Decimal :=
  match timing.duration? with
  | none => .error (durationFailure timing)
  | some d =>
    if d.isBelowZero then .error (.reported (.negativeDuration kind flow timing)) else .ok d

/-- The markup for a focus directive of the flow with the id `flow`. -/
def compileFocus (text flow : Text) : Except Failure Text :=
  match Directive.Focus.parse text with
  | .error fault => .error (.reported (.malformed .focus flow text fault))
  | .ok f => (checkDuration .focus flow f.timing).map f.markup

/-- The markup for a highlight directive of the flow with the id `flow`. -/
def compileHighlight (text flow : Text) : Except Failure Text :=
  match Directive.Highlight.parse text with
  | .error fault => .error (.reported (.malformed .highlight flow text fault))
  | .ok h =>
    if h.color.any CodePoint.isSurrogate then .error (.rejected [⟨[.key "color"], .notUnicode⟩])
    else (checkDuration .highlight flow h.timing).map h.markup

/-! ### Flows -/

/-- Compiles a directive if there is one. -/
def compileIfSet (compile : Text → Except Failure Text) :
    Option Text → Except Failure (Option Text)
  | none => .ok none
  | some text => (compile text).map some

/-- The animation of a flow; none if it has no directive. -/
def Flow.animation (f : Flow) : Except Failure (Option Animation) :=
  if f.focus = none ∧ f.highlight = none then .ok none
  else do
    let focus ← compileIfSet (compileFocus · f.id) f.focus
    let highlight ← compileIfSet (compileHighlight · f.id) f.highlight
    return some { focus, highlight }

/-- Compiles the directives of flows that follow others with the ids `seen`. -/
def compileAfter (seen : List Text) : List FlowRef → Run Animations
  | [] => pure []
  | ref :: refs =>
    if ref.flow.id ∈ seen then Run.report (.duplicateId ref.flow.id)
    else do
      let animation ← Run.ofExcept ref.flow.animation
      match animation with
      | none => compileAfter (ref.flow.id :: seen) refs
      | some a => do
        Run.write .debug ("Compiled directives for " ++ ref.flow.id)
        let more ← compileAfter (ref.flow.id :: seen) refs
        return (ref.flow.id, a) :: more

/-- Compiles the directives of all flows. -/
def compileAnimations (refs : List FlowRef) : Run Animations := do
  let animations ← compileAfter [] refs
  Run.write .info ("Compiled directives for " ++ Text.ofNat animations.length ++ " of " ++
    Text.ofNat refs.length ++ " flows")
  return animations

end SvgDeck
