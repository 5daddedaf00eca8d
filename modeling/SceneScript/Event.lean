import SceneScript.Script.Line

/-!
# Event

What the library can report while it works.  Events are data: a function that has something to
report returns it beside its value (`Logged`), and the command line decides which of them to print.
-/

namespace SceneScript

/-- How important an event is. -/
inductive Level where
  | trace
  | debug
  | info
  deriving DecidableEq, Repr

/-- The name of a level. -/
def Level.name : Level → String
  | .trace => "TRACE"
  | .debug => "DEBUG"
  | .info  => "INFO"

/-- A value that an event carries. -/
inductive EventValue where
  /-- Text that is printed as it is. -/
  | text (s : String)
  /-- Text that is printed in quotes. -/
  | quoted (s : String)
  | number (n : Nat)
  deriving DecidableEq, Repr

/-- Something worth reporting. -/
inductive Event where
  /-- A line of a script gave a statement. -/
  | parsed (statement : Statement)
  /-- A line of a script said nothing. -/
  | ignored (line : String)
  /-- A line of a script was refused. -/
  | rejected (line : Nat) (reason : LineError)
  /-- A script was read to its end. -/
  | normalized (statements ignored : Nat)
  /-- An intermediate text was read to its end. -/
  | intermediateRead (statements : Nat)
  /-- A target entered the registry. -/
  | registered (target : String)
  /-- Statements were rendered for a target. -/
  | rendered (target : String) (statements bytes : Nat)
  /-- A finished text was written to a file. -/
  | wrote (path : String) (bytes : Nat)
  /-- A line of the intermediate text of a checked script. -/
  | checked (line : String)
  deriving DecidableEq, Repr

namespace Event

/-- How important the event is. -/
def level : Event → Level
  | .parsed _ | .ignored _ => .trace
  | .wrote _ _             => .info
  | _                      => .debug

/-- The part of the program that reports the event. -/
def reporter : Event → String
  | .parsed _ | .ignored _ | .rejected _ _ | .normalized _ _ => "ggconv::core::parser"
  | .intermediateRead _                                      => "ggconv::core::intermediate"
  | .registered _                                            => "ggconv::core::rules"
  | .rendered _ _ _                                          => "ggconv::core::renderer"
  | .wrote _ _ | .checked _                                  => "ggconv::cli"

/-- What the event says. -/
def message : Event → String
  | .parsed _           => "parsed"
  | .ignored _          => "ignored"
  | .rejected _ _       => "rejected"
  | .normalized _ _     => "normalized script"
  | .intermediateRead _ => "parsed intermediate text"
  | .registered _       => "registered rules"
  | .rendered _ _ _     => "rendered"
  | .wrote _ _          => "wrote output"
  | .checked line       => line

/-- The named values that the event carries, in order. -/
def fields : Event → List (String × EventValue)
  | .parsed statement                 => [("statement", .text statement.display)]
  | .ignored line                     => [("line", .quoted line)]
  | .rejected line reason             => [("line", .number line), ("reason", .text reason.message)]
  | .normalized statements skipped    =>
    [("statements", .number statements), ("ignored", .number skipped)]
  | .intermediateRead statements      => [("statements", .number statements)]
  | .registered target                => [("target_id", .text target)]
  | .rendered target statements bytes =>
    [("target_id", .text target), ("statements", .number statements), ("bytes", .number bytes)]
  | .wrote path bytes                 => [("path", .text path), ("bytes", .number bytes)]
  | .checked _                        => []

/-- Whether the event is shown at a verbosity: nothing at 0, all but traces at 1, and everything
from 2 on. -/
def shownAt (verbosity : Nat) (e : Event) : Bool :=
  match verbosity, e.level with
  | 0, _      => false
  | 1, .trace => false
  | _, _      => true

end Event

/-- A value, and what there was to report on the way to it. -/
structure Logged (α : Type) where
  value  : α
  events : List Event := []
  deriving Repr

/-- Applies `f` to the value. -/
def Logged.map {α β : Type} (f : α → β) (x : Logged α) : Logged β where
  value  := f x.value
  events := x.events

end SceneScript
