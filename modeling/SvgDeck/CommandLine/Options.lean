/-
Arguments of a command.

A command has options with a short and a long name, some of which take a value, and at
most one operand.  Long names may be cut as long as one option is left; short ones may
stand together behind one dash.  Behind two dashes alone everything is an operand.
`readArguments` turns arguments into the events that they stand for, in order, and says
what is wrong if they cannot be read.
-/
import SvgDeck.Text.Digit
import SvgDeck.Text.Quoted

namespace SvgDeck.CommandLine

structure Choice where
  short : Text
  long : Text
  takesValue : Bool
deriving DecidableEq

/-- What a command accepts. -/
structure Command where
  name : Text
  usage : Text
  help : Text
  choices : List Choice
  /-- How messages name the operand, if the command has one. -/
  operand : Option Text

/-- What one argument asks for. -/
inductive Event where
  | flag (c : Choice)
  | value (c : Choice) (v : Text)
  | operand (v : Text)

/-- Why arguments cannot be read. -/
inductive UsageFault where
  | ambiguous (argument : Text) (matching : List Text)
  | missingValue (c : Choice)
  | ignoredValue (c : Choice) (v : Text)
  | missingOperand (name : Text)
  | unknown (arguments : List Text)

def Choice.shown (c : Choice) : Text := "argument " ++ c.short ++ "/" ++ c.long

def UsageFault.message : UsageFault → Text
  | .ambiguous argument matching =>
    "ambiguous option: " ++ argument ++ " could match " ++ Text.join ", " matching
  | .missingValue c => c.shown ++ ": expected one argument"
  | .ignoredValue c v => c.shown ++ ": ignored explicit argument " ++ v.quoted
  | .missingOperand name => "the following arguments are required: " ++ name
  | .unknown arguments => "unrecognized arguments: " ++ Text.join " " arguments

/-! ### What an argument looks like -/

/-- The text behind an option in the same argument, and whether an equals sign stands between. -/
structure Attached where
  behindSign : Bool
  text : Text

inductive Shape where
  /-- An option under one of its names. -/
  | option (c : Choice) (name : Text) (attached : Option Attached)
  | unknownOption
  | operand
  /-- Two dashes alone. -/
  | divider

/-- The names of all options, in order, each with its option. -/
def names (choices : List Choice) : List (Text × Choice) :=
  choices.flatMap fun c => [(c.short, c), (c.long, c)]

def dash : CodePoint := '-'

/-- The text before the first equals sign, and what stands behind it. -/
def splitSign (t : Text) : Text × Option Attached :=
  let front := t.takeWhile (· ≠ CodePoint.ofChar '=')
  (front, if front.length = t.length then none else some ⟨true, t.drop (front.length + 1)⟩)

/-- Whether an argument is a number below zero. -/
def isNegativeNumber (t : Text) : Bool :=
  match t with
  | [] => false
  | c :: body =>
    c = dash &&
      (match body.splitOn (CodePoint.ofChar '.') with
        | [whole] => whole ≠ [] && whole.all CodePoint.isDigit
        | [whole, fraction] =>
          whole.all CodePoint.isDigit && fraction ≠ [] && fraction.all CodePoint.isDigit
        | _ => false)

/-- The options that an argument with a dash in front may stand for, when no name fits exactly. -/
def candidates (choices : List Choice) (t : Text) : List (Text × Choice × Option Attached) :=
  if t.take 2 = [dash, dash] then
    let (front, attached) := splitSign t
    (names choices).filterMap fun (name, c) =>
      if front.isPrefixOf name then some (name, c, attached) else none
  else
    (names choices).filterMap fun (name, c) =>
      if name = t.take 2 then some (name, c, some ⟨false, t.drop 2⟩)
      else if t.isPrefixOf name then some (name, c, none)
      else none

/-- What an argument looks like. -/
def shapeOf (choices : List Choice) (t : Text) : Except UsageFault Shape :=
  if t.head? ≠ some dash then .ok .operand
  else
    match (names choices).lookup t with
    | some c => .ok (.option c t none)
    | none =>
      if t.length = 1 then .ok .operand
      else
        let (front, attached) := splitSign t
        match attached, (names choices).lookup front with
        | some a, some c => .ok (.option c front (some a))
        | _, _ =>
          match candidates choices t with
          | [(name, c, attached)] => .ok (.option c name attached)
          | [] =>
            if isNegativeNumber t || t.contains ' ' then .ok .operand else .ok .unknownOption
          | several => .error (.ambiguous t (several.map (·.1)))

/-- What all arguments look like; behind the divider all are operands. -/
def shapes (choices : List Choice) : List Text → Except UsageFault (List (Text × Shape))
  | [] => .ok []
  | t :: ts =>
    if t = [dash, dash] then .ok ((t, .divider) :: ts.map fun u => (u, .operand))
    else do
      let shape ← shapeOf choices t
      let more ← shapes choices ts
      return (t, shape) :: more

/-! ### Events -/

/-- The events so far, the arguments that nothing asked for, and what ended the reading. -/
structure Events where
  events : List Event
  extra : List Text
  fault : Option UsageFault

/-- Reads further flags from the text behind a flag with a short name.  The result is their events
and whether the last option still needs its value, or the part that is no option. -/
def readCluster (choices : List Choice) (c : Choice) (name : Text) :
    Option Attached → Nat → Except UsageFault (List Event × Option Choice × Option Text)
  | none, _ => .ok (if c.takesValue then ([], some c, none) else ([.flag c], none, none))
  | some a, fuel =>
    if c.takesValue then .ok ([.value c a.text], none, none)
    else
      match fuel, a.text with
      | fuel + 1, d :: rest =>
        if name.take 2 = [dash, dash] ∨ a.behindSign ∨ d = dash then .error (.ignoredValue c a.text)
        else
          match (names choices).lookup [dash, d] with
          | none => .ok ([.flag c], none, some (dash :: d :: rest))
          | some next => do
            let attached : Option Attached :=
              match rest with
              | [] => none
              | e :: tail =>
                if e = CodePoint.ofChar '=' then some ⟨true, tail⟩ else some ⟨false, rest⟩
            let (events, open_, extra) ← readCluster choices next [dash, d] attached fuel
            return (.flag c :: events, open_, extra)
      | _, _ => .error (.ignoredValue c a.text)

/-- Puts what one argument gave in front of the rest. -/
def Events.after (events : List Event) (extra : List Text) (rest : Events) : Events :=
  ⟨events ++ rest.events, extra ++ rest.extra, rest.fault⟩

/-- Reads arguments; `wantsOperand` says that the operand is still to come. -/
def readShapes (choices : List Choice) (wantsOperand : Bool) : List (Text × Shape) → Events
  | [] => ⟨[], [], none⟩
  | (t, .operand) :: rest =>
    if wantsOperand then
      match rest with
      | (_, .divider) :: rest => (readShapes choices false rest).after [.operand t] []
      | rest => (readShapes choices false rest).after [.operand t] []
    else (readShapes choices wantsOperand rest).after [] [t]
  | (t, .divider) :: rest =>
    match rest, wantsOperand with
    | (u, _) :: rest, true => (readShapes choices false rest).after [.operand u] []
    | rest, _ => (readShapes choices wantsOperand rest).after [] [t]
  | (t, .unknownOption) :: rest => (readShapes choices wantsOperand rest).after [] [t]
  | (t, .option c name attached) :: rest =>
    match readCluster choices c name attached t.length with
    | .error f => ⟨[], [], some f⟩
    | .ok (events, none, extra) =>
      (readShapes choices wantsOperand rest).after events extra.toList
    | .ok (events, some open_, _) =>
      match rest with
      | (v, .operand) :: rest =>
        (readShapes choices wantsOperand rest).after (events ++ [.value open_ v]) []
      | _ => ⟨[], [], some (.missingValue open_)⟩

def Event.isOperand : Event → Bool
  | .operand _ => true
  | _ => false

/-- What is wrong at the end: the operand is missing, or arguments are left over. -/
def Events.finalFault (operand : Option Text) (r : Events) : Option UsageFault :=
  match r.fault with
  | some f => some f
  | none =>
    match operand with
    | some name =>
      if !r.events.any Event.isOperand then some (.missingOperand name)
      else if r.extra = [] then none
      else some (.unknown r.extra)
    | none => if r.extra = [] then none else some (.unknown r.extra)

/-- The events that arguments stand for, and what is wrong with the arguments. -/
def readArguments (command : Command) (arguments : List Text) : List Event × Option UsageFault :=
  match shapes command.choices arguments with
  | .error f => ([], some f)
  | .ok shapes =>
    let r := readShapes command.choices command.operand.isSome shapes
    (r.events, r.finalFault command.operand)

/-! ### Commands -/

/-- What a command leaves behind: its exit code and the two texts it prints.  Printing never fails
here; what happens where the output has an encoding that cannot take a text is outside the model. -/
structure Output where
  code : Nat
  out : Text
  err : Text

def helpChoice : Choice := ⟨"-h", "--help", false⟩

def Event.isHelp : Event → Bool
  | .flag c => c = helpChoice
  | _ => false

/-- The end of a command whose arguments are wrong. -/
def usageError (command : Command) (f : UsageFault) : Output :=
  ⟨2, [], command.usage ++ "\n" ++ command.name ++ ": error: " ++ f.message ++ "\n"⟩

/-- The events of a command that is to run, or its end: help is given before anything behind it is
looked at. -/
def start (command : Command) (arguments : List Text) : Except Output (List Event) :=
  let (events, fault) := readArguments command arguments
  if events.any Event.isHelp then .error ⟨0, command.usage ++ "\n\n" ++ command.help ++ "\n", []⟩
  else
    match fault with
    | some f => .error (usageError command f)
    | none => .ok events

end SvgDeck.CommandLine
