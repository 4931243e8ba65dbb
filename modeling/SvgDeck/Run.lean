/-
Operations that keep a log.

A run is a list of log lines and an outcome.  Runs are put in sequence as a monad;
the log of a run that fails ends where it failed.
-/
import SvgDeck.Failure

namespace SvgDeck

/-- How important a log line is. -/
inductive Level where
  | debug
  | info
  | error
deriving DecidableEq

structure LogLine where
  level : Level
  text : Text

def Level.name : Level → Text
  | .debug => "DEBUG"
  | .info => "INFO"
  | .error => "ERROR"

/-- A log line as it is shown. -/
def LogLine.shown (l : LogLine) : Text := l.level.name ++ ": " ++ l.text

/-- What an operation wrote to the log, and how it ended. -/
structure Run (α : Type) where
  log : List LogLine
  outcome : Except Failure α

namespace Run

variable {α β : Type}

/-- An operation that leaves no log. -/
def ofExcept (outcome : Except Failure α) : Run α := ⟨[], outcome⟩

def fail (f : Failure) : Run α := ofExcept (.error f)

/-- Fails with a cause that is reported to the author. -/
def report (c : Cause) : Run α := fail (.reported c)

def write (level : Level) (text : Text) : Run Unit := ⟨[⟨level, text⟩], .ok ()⟩

def bind (r : Run α) (next : α → Run β) : Run β :=
  match r.outcome with
  | .ok a => ⟨r.log ++ (next a).log, (next a).outcome⟩
  | .error f => ⟨r.log, .error f⟩

instance : Monad Run where
  pure a := ofExcept (.ok a)
  bind := bind

end Run

end SvgDeck
